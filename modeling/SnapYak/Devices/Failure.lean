import SnapYak.Devices.Sound

/-!
# Failing updates

A vote or a reply changes the device before its update is issued, and nothing that happens to the
update later is reported back: the callbacks print a message or stay silent. When an update fails,
on whatever of its steps, the back end is as it was before, and the device keeps the vote or the
comment.

## Main definitions

* `Device.screenCopy` : the copy that a vote or a reply starts from, on its screen.
* `World.Fails` : the ways an update can fail.

## Main results

* `World.Fails.eq` : what a failing update leaves behind.
* `World.failed_update` : the device and the collection after a failing vote or reply.
* `World.failed_vote_recorded` : a failing vote and a failing reply.
-/

namespace SnapYak

/-! ### Votes and replies on a device -/

namespace Device

variable {D : Type} {d d' : Device D} {a : Action D}

/-- The copy on the screen on which a vote or a reply takes place. -/
def screenCopy (d : Device D) : Action D → Option Yak
  | .voteRow _ tag => d.list.messages[tag]?
  | .voteMessage _ n => d.messageScreens[n]?
  | .reply n _ => d.commentsScreens[n]?
  | _ => none

theorem tapped_or_replied {yak : Yak} (h : d.screenCopy a = some yak) :
    (∃ dir, d.tapped a = some (dir, yak)) ∨ ∃ comment, d.replied a = some (yak, comment) := by
  simp only [screenCopy] at h
  split at h
  · rename_i dir tag
    exact Or.inl ⟨dir, by simp only [tapped, h, Option.map_some]⟩
  · rename_i dir n
    exact Or.inl ⟨dir, by simp only [tapped, h, Option.map_some]⟩
  · rename_i n comment
    exact Or.inr ⟨comment, by simp only [replied, h, Option.map_some]⟩
  · exact absurd h (by simp)

section Act

variable [LinearOrder D] [Zero D] [OfNat D 10000000] {P : Platform D} {calls : Calls D} {yak : Yak}

/-- A vote changes the lists and the copy on its screen, and begins an update. -/
theorem act_of_tapped {dir : Direction} (htapped : d.tapped a = some (dir, yak))
    (h : d.act P a = some (d', calls)) :
    d'.defaults = (vote dir d.defaults yak).defaults ∧
      d'.screenCopy a = some (vote dir d.defaults yak).yak ∧
      calls = [updateYakVote (vote dir d.defaults yak).yak yak] := by
  simp only [tapped] at htapped
  split at htapped
  · rename_i dir' tag
    obtain ⟨_, hyak, heq⟩ := Option.map_eq_some_iff.mp htapped
    obtain ⟨rfl, rfl⟩ := Prod.mk.inj heq
    simp only [act, hyak, Option.bind_eq_bind, Option.bind_some, Option.bind_eq_some_iff] at h
    obtain ⟨r, hr, h⟩ := h
    obtain ⟨_, hyak', -, rfl⟩ := MessagesListViewController.vote_eq_some.mp hr
    obtain rfl := Option.some.inj (hyak.symm.trans hyak')
    obtain ⟨rfl, rfl⟩ := Prod.mk.inj (Option.some.inj h)
    refine ⟨rfl, List.getElem?_set_self (List.getElem?_eq_some_iff.mp hyak).1, ?_⟩
    rw [passed_vote]
    rfl
  · rename_i dir' n
    obtain ⟨_, hyak, heq⟩ := Option.map_eq_some_iff.mp htapped
    obtain ⟨rfl, rfl⟩ := Prod.mk.inj heq
    simp only [act, hyak, Option.bind_eq_bind, Option.bind_some, Option.bind_eq_some_iff] at h
    obtain ⟨r, hr, h⟩ := h
    obtain ⟨-, rfl⟩ := MessageViewController.vote_eq_some.mp hr
    obtain ⟨rfl, rfl⟩ := Prod.mk.inj (Option.some.inj h)
    refine ⟨rfl, List.getElem?_set_self (List.getElem?_eq_some_iff.mp hyak).1, ?_⟩
    rw [passed_vote]
    rfl
  · exact absurd htapped (by simp)

/-- A reply changes the copy on its screen, and begins an update. -/
theorem act_of_replied {comment : String} (hreplied : d.replied a = some (yak, comment))
    (h : d.act P a = some (d', calls)) :
    d'.defaults = d.defaults ∧ d'.screenCopy a = some (yak.addComment comment) ∧
      calls = [updateComments (yak.addComment comment) yak] := by
  simp only [replied] at hreplied
  split at hreplied
  · obtain ⟨_, hyak, heq⟩ := Option.map_eq_some_iff.mp hreplied
    obtain ⟨rfl, rfl⟩ := Prod.mk.inj heq
    simp only [act, hyak, Option.bind_eq_bind, Option.bind_some, Option.some.injEq,
      Prod.mk.injEq] at h
    obtain ⟨rfl, rfl⟩ := h
    exact ⟨rfl, List.getElem?_set_self (List.getElem?_eq_some_iff.mp hyak).1, rfl⟩
  · exact absurd hreplied (by simp)

end Act

end Device

/-! ### The read and the write of one update -/

namespace Remote

variable {κ τ D : Type} [LE D] [DecidableLE D] {distance : GeoPoint → GeoPoint → D}
  {s : Remote κ τ D} {f : Field} {target : Yak} {c : τ} {rawSnapshot : Option (List Document)}

/-- The back end with the read of one more update. -/
def withRead (s : Remote κ τ D) (f : Field) (target : Yak) (c : τ)
    (rawSnapshot : Option (List Document)) : Remote κ τ D :=
  { s with reads := s.reads ++ [⟨.update f target c, rawSnapshot⟩] }

theorem signal_fail_withRead :
    (s.withRead f target c rawSnapshot).signal distance (.fail s.reads.length) =
      some (s, .nothing) := by
  simp [signal, withRead, List.eraseIdx_append_of_length_le]

theorem signal_snapshot_withRead :
    (s.withRead f target c none).signal distance (.snapshot s.reads.length) =
      some (s.withRead f target c (some s.docs), .nothing) := by
  simp [signal, withRead]

theorem signal_deliver_withRead {docs : List Document} :
    (s.withRead f target c (some docs)).signal distance (.deliver s.reads.length) =
      some (match firstMatch target docs with
        | some id => { s with writes := s.writes ++ [⟨id, f, target, c⟩] }
        | none => s, .nothing) := by
  cases h : firstMatch target docs <;>
    simp [signal, withRead, callback, h, List.eraseIdx_append_of_length_le]

theorem signal_reject_append {w : Write τ} :
    Remote.signal distance { s with writes := s.writes ++ [w] } (.reject s.writes.length) =
      some (s, .nothing) := by
  simp [signal, List.eraseIdx_append_of_length_le]

theorem signal_reject_length :
    s.signal distance (.reject s.writes.length) = none := by
  simp [signal]

end Remote

/-! ### Failures -/

namespace World

variable {ι D : Type} [DecidableEq ι] [LinearOrder D] [Zero D] [OfNat D 10000000]

/-- The ways an update can fail that an action has begun in the world `s`, nothing else happening:
its `getDocuments` returns an error, no document has the `image_url` of its target, or its
`updateData` is rejected. The world after the action is `s₁`. -/
inductive Fails (P : Platform D) (url : String) (s s₁ : World ι D) : World ι D → Prop
  | getDocuments {t : World ι D}
      (ht : (machine ι P).run s₁ [.signal (.fail s.remote.reads.length)] = some t) :
      Fails P url s s₁ t
  | snapshot {t : World ι D}
      (ht : (machine ι P).run s₁ [.signal (.snapshot s.remote.reads.length),
        .signal (.fail s.remote.reads.length)] = some t) :
      Fails P url s s₁ t
  | noDocument {t : World ι D} (hurl : ∀ d ∈ s.remote.docs, d.url? ≠ some url)
      (ht : (machine ι P).run s₁ [.signal (.snapshot s.remote.reads.length),
        .signal (.deliver s.remote.reads.length)] = some t) :
      Fails P url s s₁ t
  | updateData {t : World ι D}
      (ht : (machine ι P).run s₁ [.signal (.snapshot s.remote.reads.length),
        .signal (.deliver s.remote.reads.length),
        .signal (.reject s.remote.writes.length)] = some t) :
      Fails P url s s₁ t

variable {P : Platform D}

theorem step_signal_of_nothing {s : World ι D} {g : Signal}
    {remote : Remote (ι × Completion) (ι × Yak) D}
    (h : s.remote.signal P.distance g = some (remote, .nothing)) :
    (machine ι P).step s (.signal g) = some { s with remote := remote } := by
  simp only [machine, h, Option.bind_eq_bind, Option.bind_some, settle]

/-- **What a failing update leaves behind.** The back end is as it was before the update was issued,
and no device has changed since. -/
theorem Fails.eq {s t : World ι D} {f : Field} {target : Yak} {c : ι × Yak} {devices : ι → Device D}
    (h : Fails P target.imageUrl s ⟨s.remote.withRead f target c none, devices⟩ t) :
    t = ⟨s.remote, devices⟩ := by
  have hsnapshot := step_signal_of_nothing (P := P)
    (s := ⟨s.remote.withRead f target c none, devices⟩) Remote.signal_snapshot_withRead
  have hdeliver := step_signal_of_nothing (P := P)
    (s := ⟨s.remote.withRead f target c (some s.remote.docs), devices⟩)
    Remote.signal_deliver_withRead
  cases h with
  | getDocuments ht =>
    rw [Machine.run_singleton_eq_some, step_signal_of_nothing Remote.signal_fail_withRead] at ht
    exact (Option.some.inj ht).symm
  | snapshot ht =>
    obtain ⟨u, hu, ht⟩ := Machine.run_cons_eq_some.mp ht
    obtain rfl := Option.some.inj (hsnapshot.symm.trans hu)
    rw [Machine.run_singleton_eq_some, step_signal_of_nothing Remote.signal_fail_withRead] at ht
    exact (Option.some.inj ht).symm
  | noDocument hurl ht =>
    have hnone : firstMatch target s.remote.docs = none := by
      by_contra hne
      obtain ⟨id, hid⟩ := Option.ne_none_iff_exists'.mp hne
      obtain ⟨d, hd, -, hdurl⟩ := firstMatch_eq_some hid
      exact hurl d hd hdurl
    obtain ⟨u, hu, ht⟩ := Machine.run_cons_eq_some.mp ht
    obtain rfl := Option.some.inj (hsnapshot.symm.trans hu)
    rw [Machine.run_singleton_eq_some] at ht
    rw [hnone] at hdeliver
    exact (Option.some.inj (hdeliver.symm.trans ht)).symm
  | updateData ht =>
    obtain ⟨u, hu, ht⟩ := Machine.run_cons_eq_some.mp ht
    obtain rfl := Option.some.inj (hsnapshot.symm.trans hu)
    obtain ⟨v, hv, ht⟩ := Machine.run_cons_eq_some.mp ht
    obtain rfl := Option.some.inj (hdeliver.symm.trans hv)
    rw [Machine.run_singleton_eq_some] at ht
    cases hid : firstMatch target s.remote.docs with
    | none =>
      -- Without a write, there is nothing to reject.
      simp only [hid, machine, Remote.signal_reject_length, Option.bind_eq_bind,
        Option.bind_none] at ht
      exact absurd ht (by simp)
    | some id =>
      simp only [hid] at ht
      rw [step_signal_of_nothing Remote.signal_reject_append] at ht
      exact (Option.some.inj ht).symm

/-- **Failing votes and replies.** After a vote or a reply whose update fails, nothing else
happening: the back end is as before the vote or the reply, and the device is as this has left it.
The lists record the toggled ballot and the copy on the screen has the new likes, respectively the
copy on the screen has the comment. -/
theorem failed_update {s s₁ t : World ι D} {i : ι} {a : Action D} {yak : Yak}
    (hvotes : Represents (s.devices i).defaults (s.devices i).defaults.ballot)
    (hyak : (s.devices i).screenCopy a = some yak)
    (hstep : (machine ι P).step s (.act i a) = some s₁) (hfail : Fails P yak.imageUrl s s₁ t) :
    t.remote = s.remote ∧ t.devices = s₁.devices ∧
    (∀ dir, (s.devices i).tapped a = some (dir, yak) →
      let b := (s.devices i).defaults.ballot yak.imageUrl
      Represents (t.devices i).defaults
        (tapBallots (s.devices i).defaults.ballot yak.imageUrl dir) ∧
      (t.devices i).screenCopy a = some (yak.addLikes ((b.tap dir).value - b.value))) ∧
    ∀ comment, (s.devices i).replied a = some (yak, comment) →
      (t.devices i).defaults = (s.devices i).defaults ∧
      (t.devices i).screenCopy a = some (yak.addComment comment) := by
  obtain ⟨d, calls, remote, hact, hissue, rfl⟩ := step_act_eq_some.mp hstep
  have hend : t = ⟨s.remote, Function.update s.devices i d⟩ := by
    rcases Device.tapped_or_replied hyak with ⟨dir, htapped⟩ | ⟨comment, hreplied⟩
    · obtain ⟨-, -, rfl⟩ := Device.act_of_tapped htapped hact
      obtain rfl : s.remote.withRead .likes _ (i, yak) none = remote := Option.some.inj hissue
      rw [← (imageUrl_comments_vote dir (s.devices i).defaults yak).1] at hfail
      exact hfail.eq
    · obtain ⟨-, -, rfl⟩ := Device.act_of_replied hreplied hact
      obtain rfl : s.remote.withRead .comments _ (i, yak) none = remote := Option.some.inj hissue
      replace hfail : Fails P (yak.addComment comment).imageUrl s _ t := hfail
      exact hfail.eq
  subst hend
  refine ⟨rfl, rfl, fun dir htapped => ?_, fun comment hreplied => ?_⟩
  · obtain ⟨hdefaults, hcopy, -⟩ := Device.act_of_tapped htapped hact
    obtain ⟨hrep, hlikes, -⟩ := hvotes.vote dir yak
    simp only [Function.update_self, hdefaults, hcopy, hlikes, and_true]
    exact hrep
  · obtain ⟨hdefaults, hcopy, -⟩ := Device.act_of_replied hreplied hact
    simp only [Function.update_self]
    exact ⟨hdefaults, hcopy⟩

/-- A vote whose `updateData` is rejected. -/
theorem failed_update_rejected_vote :
    let yak := newYak "a" ⟨0, 0⟩ 0
    let opening : List (Event Unit ℕ) := [
      .act () (.loadList 0), .signal (.snapshot 0), .signal (.deliver 0)]
    ∃ s s₁ t, (machine Unit Platform.discrete).run (single yak ⟨0, 0⟩) opening = some s ∧
      (machine Unit Platform.discrete).step s (.act () (.voteRow .up 0)) = some s₁ ∧
      Fails Platform.discrete "a" s s₁ t ∧ t.remote = s.remote ∧
      (t.devices ()).defaults.ballot "a" = .up := by
  intro yak opening
  obtain ⟨s, hs⟩ : ∃ s, (machine Unit Platform.discrete).run (single yak ⟨0, 0⟩) opening = some s :=
    Option.isSome_iff_exists.mp (by decide +kernel)
  have h : ∀ s ∈ (machine Unit Platform.discrete).run (single yak ⟨0, 0⟩) opening,
      (s.devices ()).list.messages[0]? = some yak ∧ (s.devices ()).defaults.ballot "a" = .none ∧
      (((machine Unit Platform.discrete).step s (.act () (.voteRow .up 0))).bind fun s₁ =>
        (machine Unit Platform.discrete).run s₁ [.signal (.snapshot s.remote.reads.length),
          .signal (.deliver s.remote.reads.length),
          .signal (.reject s.remote.writes.length)]).isSome := by decide +kernel
  obtain ⟨hyak, hballot, hend⟩ := h s hs
  obtain ⟨t, ht⟩ := Option.isSome_iff_exists.mp hend
  obtain ⟨s₁, hs₁, ht⟩ := Option.bind_eq_some_iff.mp ht
  have hfail : Fails Platform.discrete yak.imageUrl s s₁ t := .updateData ht
  have hvotes := (((initial_single rfl rfl _).sound.run hs).devices ()).votes
  obtain ⟨hremote, -, hvote, -⟩ :=
    failed_update (i := ()) (a := .voteRow .up 0) hvotes hyak hs₁ hfail
  refine ⟨s, s₁, t, hs, hs₁, hfail, hremote, ?_⟩
  have htapped : (s.devices ()).tapped (.voteRow .up 0) = some (.up, yak) := by
    simp only [Device.tapped, hyak, Option.map_some]
  rw [(hvote .up htapped).1.ballot_eq]
  show tapBallots _ "a" .up "a" = _
  rw [tapBallots, Function.update_self, hballot]
  rfl

/-- **A failing vote is recorded, and a failing comment is shown.** The `getDocuments` of a vote and
that of a reply return an error. The vote is among the upvotes and on the row, and the comment on
the screen; the collection has neither. -/
theorem failed_vote_recorded :
    let yak := newYak "a" ⟨0, 0⟩ 0
    let opening : List (Event Unit ℕ) := [
      .act () (.loadList 0), .signal (.snapshot 0), .signal (.deliver 0),
      .act () (.selectRow 0), .act () (.present 0), .act () (.openComments 0)]
    ∃ s t u, (machine Unit Platform.discrete).run (single yak ⟨0, 0⟩) opening = some s ∧
      (s.devices ()).defaults.voted .up = [] ∧ (s.devices ()).list.messages = [yak] ∧
      (s.devices ()).commentsScreens = [yak] ∧
      (machine Unit Platform.discrete).run s
        [.act () (.voteRow .up 0), .signal (.fail 0)] = some t ∧
      (t.devices ()).defaults.voted .up = ["a"] ∧
      (t.devices ()).list.messages = [{ yak with likes := 1 }] ∧
      stored t.remote.docs "a" = some yak ∧
      (machine Unit Platform.discrete).run s
        [.act () (.reply 0 "x"), .signal (.fail 0)] = some u ∧
      (u.devices ()).commentsScreens = [{ yak with comments := ["x"] }] ∧
      stored u.remote.docs "a" = some yak := by
  intro yak opening
  obtain ⟨s, hs⟩ : ∃ s, (machine Unit Platform.discrete).run (single yak ⟨0, 0⟩) opening = some s :=
    Option.isSome_iff_exists.mp (by decide +kernel)
  have h : ∀ s ∈ (machine Unit Platform.discrete).run (single yak ⟨0, 0⟩) opening,
      (s.devices ()).defaults.voted .up = [] ∧ (s.devices ()).list.messages = [yak] ∧
      (s.devices ()).commentsScreens = [yak] ∧
      ((machine Unit Platform.discrete).run s [.act () (.voteRow .up 0), .signal (.fail 0)]).map
        (fun t => ((t.devices ()).defaults.voted .up, (t.devices ()).list.messages,
          stored t.remote.docs "a")) = some (["a"], [{ yak with likes := 1 }], some yak) ∧
      ((machine Unit Platform.discrete).run s [.act () (.reply 0 "x"), .signal (.fail 0)]).map
        (fun u => ((u.devices ()).commentsScreens, stored u.remote.docs "a")) =
        some ([{ yak with comments := ["x"] }], some yak) := by decide +kernel
  obtain ⟨hvoted, hlist, hshown, hvote, hreply⟩ := h s hs
  obtain ⟨t, ht, htend⟩ := Option.map_eq_some_iff.mp hvote
  obtain ⟨u, hu, huend⟩ := Option.map_eq_some_iff.mp hreply
  simp only [Prod.mk.injEq] at htend huend
  exact ⟨s, t, u, hs, hvoted, hlist, hshown, ht, htend.1, htend.2.1, htend.2.2, hu, huend.1,
    huend.2⟩

end World

end SnapYak
