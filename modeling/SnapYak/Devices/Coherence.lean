import SnapYak.Devices.Ledger
import SnapYak.Devices.Settled

/-!
# The copies of one device

A yak is copied to the list, to the map and to every message screen. A vote changes the copy that it
starts from and no other, and the lists of votes are shared by all screens. A row of the list and
the message screen opened from it part ways with the first vote on the message screen, until the
list is fetched again.

With one device and no calls that fail or overtake one another, the settled likes of a yak are its
likes without the vote of the device and this vote, as long as every vote starts from a copy that
has the settled likes.

## Main definitions

* `World.Coherent` : a vote starts from, and hands over, the likes that the lists account for.
* `World.UpToDate` : a vote starts from a copy that has the settled likes.

## Main results

* `World.coherent_iff` : the runs in which all votes are coherent.
* `World.vote_on_stale_row` : a run in which one is not.
-/

namespace SnapYak

namespace World

variable {D : Type}

/-- The likes of a yak without the vote of the device. -/
def likesOfOthers (s : World Unit D) (url : String) : ℤ :=
  storedValue Yak.likes 0 s.remote.docs url - (s.devices ()).defaults.contribution url

/-- A vote handler starts from a copy whose likes are those of the others and what the lists of the
device contribute, and hands over the likes of the others and the new contribution. -/
def Coherent (others : String → ℤ) (s : World Unit D) : Event Unit D → Prop
  | .act _ a => ∀ p ∈ (s.devices ()).tapped a,
    let v := vote p.1 (s.devices ()).defaults p.2
    p.2.likes = others p.2.imageUrl + (s.devices ()).defaults.contribution p.2.imageUrl ∧
      v.passed.map Yak.likes = [others p.2.imageUrl + v.defaults.contribution p.2.imageUrl]
  | .signal _ => True

/-- A vote handler starts from a copy that has the likes of the last vote for the yak if this is
still outstanding, and otherwise the stored likes. -/
def UpToDate (s : World Unit D) : Event Unit D → Prop
  | .act _ a => ∀ p ∈ (s.devices ()).tapped a,
    p.2.likes = s.remote.settled Yak.likes 0 .likes p.2.imageUrl
  | .signal _ => True

instance (others : String → ℤ) (s : World Unit D) :
    (e : Event Unit D) → Decidable (Coherent others s e)
  | .act _ a => inferInstanceAs (Decidable (∀ p ∈ (s.devices ()).tapped a, _))
  | .signal _ => isTrue trivial

instance (s : World Unit D) : (e : Event Unit D) → Decidable (UpToDate s e)
  | .act _ a => inferInstanceAs (Decidable (∀ p ∈ (s.devices ()).tapped a, _))
  | .signal _ => isTrue trivial

/-- The settled likes are those of the others and what the lists of the device contribute. -/
structure Accounted (others : String → ℤ) (s : World Unit D) : Prop where
  sound : Sound s
  settled : ∀ url, s.remote.settled Yak.likes 0 .likes url =
    others url + (s.devices ()).defaults.contribution url

theorem Sound.accounted {s : World Unit D} (h : Sound s) (hq : s.remote.Quiescent) :
    Accounted s.likesOfOthers s := by
  refine ⟨h, fun url => ?_⟩
  rw [Remote.settled_of_quiescent hq, likesOfOthers]
  omega

namespace Accounted

variable {others : String → ℤ} {s t : World Unit D}

/-- The likes that a vote hands over, in terms of the lists. -/
theorem passed (h : Accounted others s) (dir : Direction) (yak : Yak) :
    let v := vote dir (s.devices ()).defaults yak
    v.passed = [yak.addLikes (v.defaults.contribution yak.imageUrl -
      (s.devices ()).defaults.contribution yak.imageUrl)] := by
  intro v
  have hvotes := (h.sound.devices ()).votes
  obtain ⟨hrep, -, hpassed⟩ := hvotes.vote dir yak
  rw [hrep.contribution_eq, hvotes.contribution_eq, tapBallots, Function.update_self]
  exact hpassed

/-- A vote is coherent exactly when its copy has the settled likes. -/
theorem coherent_iff_upToDate (h : Accounted others s) (e : Event Unit D) :
    Coherent others s e ↔ UpToDate s e := by
  cases e with
  | signal g => exact Iff.rfl
  | act i a =>
    refine forall₂_congr fun p _ => ?_
    simp only [h.settled, h.passed p.1 p.2, List.map_cons, List.map_nil, Yak.addLikes]
    constructor
    · exact And.left
    · intro hlikes
      refine ⟨hlikes, ?_⟩
      rw [hlikes]
      congr 1
      omega

/-- The settled likes after an action. -/
theorem settled_act (h : Accounted others s) {a : Action D} {d : Device D} {calls : Device.Calls D}
    (hact : (s.devices ()).Effect a d calls) (hup : UpToDate s (.act () a))
    (hi : s.remote.Issued (calls.map (Request.tag ())) t.remote) (url : String) :
    t.remote.settled Yak.likes 0 .likes url = others url + d.defaults.contribution url := by
  have hd := (h.sound.devices ()).act hact
  have hvalue := (h.sound.devices ()).value_ballot hact url
  rw [← hd.1.votes.contribution_eq, ← (h.sound.devices ()).votes.contribution_eq] at hvalue
  rw [hi.settled, h.settled, hvalue]
  cases hact with
  | quiet htapped _ hcalls _ _ =>
    rw [List.filterMap_eq_nil_iff.mpr hcalls, Device.swing, htapped, List.foldl_nil, add_zero]
  | reply htapped _ _ _ _ =>
    rw [Device.swing, htapped, add_zero]
    rfl
  | @vote dir yak htapped _ _ _ _ =>
    have hlikes : yak.likes = _ := (hup (dir, yak) htapped).trans (h.settled _)
    obtain ⟨-, hcopy, -⟩ := (h.sound.devices ()).votes.vote dir yak
    rw [Device.filterMap_call?_vote, hcopy, Device.swing, htapped]
    simp only [List.foldl_cons, List.foldl_nil, Remote.overwrite, Yak.imageUrl_addLikes, true_and]
    by_cases hurl : yak.imageUrl = url
    · simp only [hurl, ↓reduceIte, Yak.addLikes] at hlikes ⊢
      omega
    · simp only [hurl, ↓reduceIte]
      omega

variable [LinearOrder D] [Zero D] [OfNat D 10000000] {P : Platform D}

/-- **Coherence.** Every step that starts no vote from an outdated copy keeps the settled likes
accounted for. -/
theorem step (h : Accounted others s) {e : Event Unit D} (horder : e.Orderly) (hup : UpToDate s e)
    (ht : (machine Unit P).step s e = some t) : Accounted others t := by
  refine ⟨h.sound.step ht, fun url => ?_⟩
  cases effect_of_step ht with
  | @act i a d calls remote hact hissue =>
    rw [h.settled_act hact hup (Remote.issued_of_issueAll hissue)]
    simp [setDevice]
  | signal he =>
    exact (h.sound.settled_signal isValue_likes horder he url).trans (h.settled url)
  | @completed g remote i k yaks he =>
    refine (h.sound.settled_signal isValue_likes horder he url).trans ((h.settled url).trans ?_)
    simp [setDevice, Device.defaults_complete]

end Accounted

/-- **The copies of one device.** Take one device and no other client, no outstanding call to begin
with, and a run in which no call fails or overtakes another. Every vote handler starts from a copy
whose likes are those without the vote of the device and what its lists contribute, and hands over
the likes without the vote and the new contribution, if and only if every vote handler starts from a
copy with the likes of the last vote for the yak, as long as this is outstanding, and otherwise with
the stored likes. -/
theorem coherent_iff [LinearOrder D] [Zero D] [OfNat D 10000000] {P : Platform D}
    {s : World Unit D} (h : Sound s) (hq : s.remote.Quiescent) {es : List (Event Unit D)}
    (horder : (machine Unit P).Along (fun _ e => e.Orderly) s es) :
    (machine Unit P).Along (Coherent s.likesOfOthers) s es ↔
      (machine Unit P).Along UpToDate s es := by
  have hs := h.accounted hq
  generalize s.likesOfOthers = others at hs ⊢
  have hiff : (machine Unit P).Along (fun s e => e.Orderly ∧ Coherent others s e) s es ↔
      (machine Unit P).Along (fun s e => e.Orderly ∧ UpToDate s e) s es :=
    Machine.along_congr (I := Accounted others)
      (fun h hA ht => h.step hA.1 ((h.coherent_iff_upToDate _).mp hA.2) ht)
      (fun h => and_congr_right fun _ => h.coherent_iff_upToDate _) hs
  exact ⟨fun hA => (hiff.mp (horder.and hA)).mono fun _ _ => And.right,
    fun hA => (hiff.mpr (horder.and hA)).mono fun _ _ => And.right⟩

/-- A vote on a row of the list that is taken back before it has landed. -/
theorem coherent_iff_vote_taken_back :
    let yak := newYak "a" ⟨0, 0⟩ 0
    let es : List (Event Unit ℕ) := [
      .act () (.loadList 0), .signal (.snapshot 0), .signal (.deliver 0),
      .act () (.voteRow .up 0), .signal (.snapshot 0), .act () (.voteRow .up 0),
      .signal (.deliver 0), .signal (.apply 0)]
    (machine Unit Platform.discrete).Along (Coherent (likesOfOthers (single yak ⟨0, 0⟩)))
      (single yak ⟨0, 0⟩) es := by
  intro yak es
  exact (coherent_iff (initial_single rfl rfl _).sound ⟨rfl, rfl, rfl, rfl⟩
    (by decide +kernel)).mpr (by decide +kernel)

/-- **A vote on a stale row.** A yak is opened from the list, upvoted on the message screen, and the
vote lands. When the message screen is closed and the list is being fetched again, the row still has
the old likes, and a tap on it takes the vote back from these: the stored likes become `-1`. -/
theorem vote_on_stale_row :
    let yak := newYak "a" ⟨0, 0⟩ 0
    let es : List (Event Unit ℕ) := [
      .act () (.loadList 0), .signal (.snapshot 0), .signal (.deliver 0),
      .act () (.selectRow 0), .act () (.present 0),
      .act () (.voteMessage .up 0), .signal (.snapshot 0), .signal (.deliver 0), .signal (.apply 0),
      .act () (.closeMessage 0), .act () .showList, .act () (.voteRow .up 0),
      .signal (.snapshot 0), .signal (.deliver 0),
      .signal (.snapshot 0), .signal (.deliver 0), .signal (.apply 0)]
    Initial (single yak ⟨0, 0⟩ : World Unit ℕ) ∧
    (machine Unit Platform.discrete).Along (fun _ e => e.Orderly) (single yak ⟨0, 0⟩) es ∧
    ¬(machine Unit Platform.discrete).Along (Coherent (likesOfOthers (single yak ⟨0, 0⟩)))
      (single yak ⟨0, 0⟩) es ∧
    ∃ t y, (machine Unit Platform.discrete).run (single yak ⟨0, 0⟩) es = some t ∧
      t.remote.Quiescent ∧ stored t.remote.docs "a" = some y ∧ y.likes = -1 ∧
      (t.devices ()).defaults.voted .up = [] ∧ (t.devices ()).defaults.voted .down = [] := by
  intro yak es
  have h : ((machine Unit Platform.discrete).run (single yak ⟨0, 0⟩) es).map (fun t =>
      (decide t.remote.Quiescent, stored t.remote.docs "a", (t.devices ()).defaults.voted .up,
        (t.devices ()).defaults.voted .down)) =
      some (true, some { yak with likes := -1 }, [], []) := by decide +kernel
  obtain ⟨t, ht, heq⟩ := Option.map_eq_some_iff.mp h
  simp only [Prod.mk.injEq, decide_eq_true_eq] at heq
  obtain ⟨hq, hy, hup, hdown⟩ := heq
  exact ⟨initial_single rfl rfl _, by decide +kernel, by decide +kernel, t, _, ht, hq, hy, rfl, hup,
    hdown⟩

end World

end SnapYak
