import SnapYak.Machine.Calls
import SnapYak.Screens.ListScreen
import SnapYak.Screens.Map

/-!
# Overlapping fetches

The list screen and the map screen issue a fetch whenever they are loaded, appear or get a location,
and the list screen also when it is pulled. Several fetches may be outstanding, each with a location
and a radius of its own, and nothing orders their callbacks. A callback replaces `messages`
whatever they come from.

So the messages are the result that arrived last, and not that of the fetch issued last. On the list
screen the user may since have voted for some of them; on the map screen they are gone if the
screen appeared since without a location.

## Main definitions

* `ListScreen.fetchStep`, `MapScreen.fetchStep` : what an event does to the fetches.
* `ListScreen.votes` : the copies voted for since a result arrived last.
* `Voted` : what votes make of a result, up to the order.
* `ListScreen.Fetched` : the messages of the list screen are the result that arrived last.

## Main results

* `ListScreen.Fetched.step` : a step keeps them so.
* `messages_eq_latest` : the messages of both screens.
* `stale_fetch_wins` : an older fetch replaces the result of a newer one.
-/

namespace SnapYak

/-- A yak without its likes. -/
def Yak.unvoted (y : Yak) : Yak := { y with likes := 0 }

@[simp] theorem Yak.unvoted_addLikes (y : Yak) (n : ℤ) : (y.addLikes n).unvoted = y.unvoted := rfl

/-- One copy is replaced by another. -/
def replaceCopy (m : Multiset Yak) (v : Yak × Yak) : Multiset Yak := v.2 ::ₘ m.erase v.1

/-- Writing a row replaces the copy in this row. -/
theorem coe_set {messages : List Yak} {tag : ℕ} {yak yak' : Yak} (h : messages[tag]? = some yak) :
    (messages.set tag yak' : Multiset Yak) = replaceCopy messages (yak, yak') := by
  obtain ⟨htag, rfl⟩ := List.getElem?_eq_some_iff.mp h
  have herase : (messages.eraseIdx tag : Multiset Yak) =
      (messages : Multiset Yak).erase messages[tag] := by
    have hperm := Multiset.coe_eq_coe.mpr (List.getElem_cons_eraseIdx_perm htag)
    rw [← hperm, ← Multiset.cons_coe, Multiset.erase_cons_head]
  rw [replaceCopy, ← herase, Multiset.cons_coe]
  exact Multiset.coe_eq_coe.mpr (List.set_perm_cons_eraseIdx htag _)

/-- The messages are the given yaks, the copies that were voted for being replaced by copies that
differ in the likes only. -/
structure Voted (yaks : List Yak) (votes : List (Yak × Yak)) (messages : List Yak) : Prop where
  likes : ∀ v ∈ votes, ∃ n, v.2 = v.1.addLikes n
  replaced : (messages : Multiset Yak) = votes.foldl replaceCopy yaks
  unvoted : (messages : Multiset Yak).map Yak.unvoted = (yaks : Multiset Yak).map Yak.unvoted

namespace Voted

variable {yaks messages messages' : List Yak} {votes : List (Yak × Yak)}

theorem of_perm (hperm : messages.Perm yaks) : Voted yaks [] messages where
  likes := by simp
  replaced := Multiset.coe_eq_coe.mpr hperm
  unvoted := congrArg _ (Multiset.coe_eq_coe.mpr hperm)

/-- The order of the messages does not matter. -/
theorem perm (h : Voted yaks votes messages) (hperm : messages'.Perm messages) :
    Voted yaks votes messages' := by
  have heq : (messages' : Multiset Yak) = messages := Multiset.coe_eq_coe.mpr hperm
  exact ⟨h.likes, heq.trans h.replaced, heq ▸ h.unvoted⟩

/-- A vote is for one copy. -/
theorem set (h : Voted yaks votes messages) {tag : ℕ} {yak : Yak} (hyak : messages[tag]? = some yak)
    (n : ℤ) :
    Voted yaks (votes ++ [(yak, yak.addLikes n)]) (messages.set tag (yak.addLikes n)) where
  likes v hv := by
    rcases List.mem_append.mp hv with hv | hv
    · exact h.likes v hv
    · obtain rfl := List.mem_singleton.mp hv
      exact ⟨n, rfl⟩
  replaced := by
    rw [coe_set hyak, h.replaced, List.foldl_append]
    rfl
  unvoted := by
    obtain ⟨htag, hget⟩ := List.getElem?_eq_some_iff.mp hyak
    have hmap : (messages.set tag (yak.addLikes n)).map Yak.unvoted = messages.map Yak.unvoted := by
      rw [List.map_set, Yak.unvoted_addLikes, ← hget,
        ← List.getElem_map Yak.unvoted (h := by simpa using htag), List.set_getElem_self]
    rw [Multiset.map_coe, hmap, ← Multiset.map_coe]
    exact h.unvoted

end Voted

theorem moves_eraseIdx {α : Type} {l : List α} {n : ℕ} {a : α} (h : l[n]? = some a) :
    n < l.length ∧ (l.eraseIdx n).length + 1 = l.length := by
  have hn := (List.getElem?_eq_some_iff.mp h).1
  rw [List.length_eraseIdx_of_lt hn]
  omega

/-! ### The list screen -/

namespace ListScreen

variable {D : Type}

theorem length_issue (s : ListScreen D) (endsRefreshing : Bool) (fetch : Option (GeoPoint × D)) :
    CallStep.Moves s.outstanding.length (s.issue endsRefreshing fetch).outstanding.length
      (fetch.map fun _ => (.issue : CallStep (List Yak))) := by
  cases fetch <;> simp [issue, CallStep.Moves]

variable [LinearOrder D] [Zero D] [OfNat D 10000000]

/-- What an event does to the fetches of the list screen. -/
def fetchStep (s : ListScreen D) : Event D → Option (CallStep (List Yak))
  | .viewDidAppear => (s.vc.viewDidAppear s.defaults s.location).2.2.map fun _ => .issue
  | .pullToRefresh => (s.vc.pullToRefresh s.location).2.map fun _ => .issue
  | .didUpdateLocations _ => some .issue
  | .deliver n yaks => some (.succeed n yaks)
  | .fail n => some (.fail n)
  | _ => none

/-- The copies that were voted for since a result arrived last, with the voted copies. -/
def votes (votes : List (Yak × Yak)) (s : ListScreen D) : Event D → List (Yak × Yak)
  | .deliver .. => []
  | .vote dir k => votes ++ ((s.touched k).map fun cell =>
      (cell.yak, (SnapYak.vote dir s.defaults cell.yak).yak)).toList
  | _ => votes

variable {P : Platform D} {contents : ImageSource → Data} {s t : ListScreen D} {e : Event D}

/-- The ways a step can change the messages. -/
inductive MessagesCases (s : ListScreen D) : Event D → ListScreen D → Prop
  | deliver {n : ℕ} {yaks : List Yak} {t : ListScreen D} (hperm : t.messages.Perm yaks) :
      MessagesCases s (.deliver n yaks) t
  | vote {dir : Direction} {k : ℕ} {cell : MessageCell} {t : ListScreen D}
      (hcell : s.touched k = some cell) (hyak : s.messages[cell.tag]? = some cell.yak)
      (hmessages : t.messages =
        s.messages.set cell.tag (SnapYak.vote dir s.defaults cell.yak).yak) :
      MessagesCases s (.vote dir k) t
  | quiet {e : Event D} {t : ListScreen D} (hperm : t.messages.Perm s.messages)
      (hvotes : ∀ l, votes l s e = l) (hfetch : ∀ n yaks, s.fetchStep e ≠ some (.succeed n yaks)) :
      MessagesCases s e t

/-- There are no other ways, when the cells show their rows; and the fetches move accordingly. -/
theorem Shown.messagesCases (hs : s.Shown) (h : (machine P contents).step s e = some t) :
    CallStep.Moves s.outstanding.length t.outstanding.length (s.fetchStep e) ∧
      MessagesCases s e t := by
  cases e with
  | changeLocation location =>
    obtain rfl := Option.some.inj h
    exact ⟨rfl, .quiet (.refl _) (fun _ => rfl) (by simp [fetchStep])⟩
  | changeDefaults defaults =>
    obtain rfl := Option.some.inj h
    exact ⟨rfl, .quiet (.refl _) (fun _ => rfl) (by simp [fetchStep])⟩
  | viewDidAppear =>
    obtain rfl := Option.some.inj h
    have hmessages := MessagesListViewController.messages_viewDidAppear s.vc s.defaults s.location
    exact ⟨length_issue .., .quiet (.of_eq hmessages) (fun _ => rfl) (by simp [fetchStep])⟩
  | pullToRefresh =>
    obtain rfl := Option.some.inj h
    have hmessages : (s.vc.pullToRefresh s.location).1.messages = s.messages :=
      MessagesListViewController.messages_checkForNewYaks ..
    exact ⟨length_issue .., .quiet (.of_eq hmessages) (fun _ => rfl) (by simp [fetchStep])⟩
  | didUpdateLocations location =>
    obtain rfl := Option.some.inj h
    exact ⟨length_issue s false (some (s.vc.didUpdateLocations location)),
      .quiet (.refl _) (fun _ => rfl) (by simp [fetchStep])⟩
  | deliver n yaks =>
    obtain ⟨fetch, hfetch, rfl⟩ := step_deliver h
    rw [(photos_complete P _ fetch yaks).2.2]
    exact ⟨moves_eraseIdx hfetch, .deliver (perm_complete ..)⟩
  | fail n =>
    obtain ⟨fetch, hfetch, rfl⟩ := step_fail h
    exact ⟨moves_eraseIdx hfetch, .quiet (.refl _) (fun _ => rfl) (by simp [fetchStep])⟩
  | selectSegment selectedSegmentIndex =>
    obtain rfl := Option.some.inj h
    exact ⟨rfl, .quiet MessagesListViewController.perm_handleSort (fun _ => rfl)
      (by simp [fetchStep])⟩
  | layout rows =>
    obtain ⟨hmessages, -, houtstanding⟩ := photos_layout h
    exact ⟨congrArg List.length houtstanding,
      .quiet (.of_eq hmessages) (fun _ => rfl) (by simp [fetchStep])⟩
  | vote dir k =>
    obtain ⟨cell, hcell, h⟩ := step_vote h
    obtain ⟨-, -, htag, hrow⟩ := hs.touched hcell
    have hyak : s.messages[cell.tag]? = some cell.yak := htag ▸ hrow
    exact ⟨congrArg List.length (photos_vote h).2.2, .vote hcell hyak (messages_vote hyak h).1⟩
  | selectRow k =>
    obtain ⟨cell, -, h⟩ := step_selectRow h
    obtain ⟨hmessages, -, houtstanding⟩ := table_didSelectRow h
    exact ⟨congrArg List.length houtstanding,
      .quiet (.of_eq hmessages) (fun _ => rfl) (by simp [fetchStep])⟩
  | deliverImage n =>
    obtain ⟨fetch, -, rfl⟩ := step_deliverImage h
    exact ⟨rfl, .quiet (.refl _) (fun _ => rfl) (by simp [fetchStep])⟩
  | failImage n =>
    obtain rfl := step_failImage h
    exact ⟨rfl, .quiet (.refl _) (fun _ => rfl) (by simp [fetchStep])⟩

/-- The messages are the result that arrived last, with the copies voted for since. -/
structure Fetched (c : Calls (List Yak)) (votes : List (Yak × Yak)) (s : ListScreen D) : Prop where
  shown : s.Shown
  wellFormed : c.WellFormed s.outstanding.length
  likes : ∀ v ∈ votes, ∃ n, v.2 = v.1.addLikes n
  messages : (s.messages : Multiset Yak) = votes.foldl replaceCopy (c.latest.getD [])
  unvoted : (s.messages : Multiset Yak).map Yak.unvoted =
    (c.latest.getD [] : Multiset Yak).map Yak.unvoted

variable {c : Calls (List Yak)} {vs : List (Yak × Yak)}

omit [LinearOrder D] [Zero D] [OfNat D 10000000] in
theorem Fetched.voted (hs : s.Fetched c vs) : Voted (c.latest.getD []) vs s.messages :=
  ⟨hs.likes, hs.messages, hs.unvoted⟩

/-- **A step keeps the messages so.** -/
theorem Fetched.step (hs : s.Fetched c vs) (h : (machine P contents).step s e = some t) :
    t.Fetched (c.act (s.fetchStep e)) (votes vs s e) := by
  obtain ⟨hmoves, hcases⟩ := hs.shown.messagesCases h
  have hwf := hs.wellFormed.act hmoves
  have hvoted : Voted ((c.act (s.fetchStep e)).latest.getD []) (votes vs s e) t.messages := by
    clear h
    cases hcases with
    | deliver hperm =>
      rw [fetchStep, Calls.latest_succeed (hs.wellFormed.length_pending ▸ hmoves.1)]
      exact .of_perm hperm
    | @vote dir k cell t hcell hyak hmessages =>
      simp only [votes, hcell, Option.map_some, Option.toList_some, hmessages, yak_vote]
      exact hs.voted.set hyak _
    | quiet hperm hvotes hfetch =>
      rw [hvotes, Calls.latest_act_of_ne hfetch]
      exact hs.voted.perm hperm
  exact ⟨hs.shown.step h, hwf, hvoted.likes, hvoted.replaced, hvoted.unvoted⟩

theorem fetched_start (selectedSegmentIndex : ℕ) (defaults : UserDefaults D)
    (location : Option GeoPoint) :
    (start selectedSegmentIndex defaults location).Fetched
      (.initial (start selectedSegmentIndex defaults location).outstanding.length) [] := by
  have hmessages : (start selectedSegmentIndex defaults location).messages = [] :=
    MessagesListViewController.messages_viewDidLoad defaults location selectedSegmentIndex
  refine ⟨shown_start selectedSegmentIndex defaults location, Calls.wellFormed_initial _, by simp,
    ?_, ?_⟩
  · rw [hmessages]
    rfl
  · rw [hmessages]
    rfl

end ListScreen

/-! ### The map screen -/

namespace MapScreen

variable {D : Type} [LinearOrder D] [Zero D] [OfNat D 10000000]

/-- What an event does to the fetches of the map screen. Without a location, `messages` is
emptied. -/
def fetchStep (_ : MapScreen D) : Event → Option (CallStep (List Yak))
  | .viewDidLoad none | .viewDidAppear none => some .discard
  | .viewDidLoad (some _) | .viewDidAppear (some _) | .didUpdateLocations _ => some .issue
  | .deliver n yaks => some (.succeed n yaks)
  | .fail n => some (.fail n)

variable {s t : MapScreen D} {e : Event}

/-- **The fetches and the messages of the map.** Every result overwrites `messages`. -/
theorem moves_register_step (h : (machine D).step s e = some t) :
    CallStep.Moves s.outstanding.length t.outstanding.length (s.fetchStep e) ∧
      t.vc.messages.getD [] =
        CallStep.register id [] (s.vc.messages.getD []) (s.fetchStep e) := by
  cases e with
  | viewDidLoad location =>
    obtain rfl := Option.some.inj h
    cases location with
    | none => exact ⟨by simp [fetchStep, CallStep.Moves], rfl⟩
    | some loc => exact ⟨by simp [fetchStep, CallStep.Moves], rfl⟩
  | viewDidAppear location =>
    simp only [machine, MapViewController.viewDidAppear, Option.bind_eq_bind,
      Option.bind_eq_some_iff, Option.map_eq_some_iff] at h
    obtain ⟨_, ⟨radius, -, rfl⟩, h⟩ := h
    obtain rfl := Option.some.inj h
    cases location with
    | none => exact ⟨by simp [fetchStep, CallStep.Moves], rfl⟩
    | some loc => exact ⟨by simp [fetchStep, CallStep.Moves], rfl⟩
  | didUpdateLocations loc =>
    simp only [machine, Option.bind_eq_bind, Option.bind_eq_some_iff] at h
    obtain ⟨_, -, h⟩ := h
    obtain rfl := Option.some.inj h
    exact ⟨by simp [fetchStep, CallStep.Moves], rfl⟩
  | deliver n yaks =>
    simp only [machine, Option.bind_eq_bind, Option.bind_eq_some_iff] at h
    obtain ⟨fetch, hfetch, h⟩ := h
    obtain rfl := Option.some.inj h
    exact ⟨moves_eraseIdx hfetch, rfl⟩
  | fail n =>
    simp only [machine, Option.bind_eq_bind, Option.bind_eq_some_iff] at h
    obtain ⟨fetch, hfetch, h⟩ := h
    obtain rfl := Option.some.inj h
    exact ⟨moves_eraseIdx hfetch, rfl⟩

end MapScreen

/-! ### Both screens -/

variable {D : Type} [LinearOrder D] [Zero D] [OfNat D 10000000]

/-- The fetches of a run of the list screen from `s`. -/
def ListScreen.fetches (P : Platform D) (contents : ImageSource → Data) (s : ListScreen D)
    (es : List (ListScreen.Event D)) : Calls (List Yak) :=
  (ListScreen.machine P contents).calls ListScreen.fetchStep s.outstanding.length s es

/-- The fetches of a run of the map screen from `s`. -/
def MapScreen.fetches (s : MapScreen D) (es : List MapScreen.Event) : Calls (List Yak) :=
  (MapScreen.machine D).calls MapScreen.fetchStep s.outstanding.length s es

/-- **Overlapping fetches.** In every state of a run of the list screen, the messages are, as a
multiset, the result of the fetch that was delivered last, the copies voted for since being
replaced by copies that differ in the likes only. In every state of a run of the map screen, they
are the result of the fetch that was delivered last, or empty if the screen was loaded or appeared
since without a location. On both screens, this is the result of the fetch issued last among those
that succeeded, if none of these was overtaken by the one that was delivered last. -/
theorem messages_eq_latest :
    (∀ (P : Platform D) (contents : ImageSource → Data) (selectedSegmentIndex : ℕ)
      (defaults : UserDefaults D) (location : Option GeoPoint) (es : List (ListScreen.Event D))
      (s : ListScreen D),
      let start := ListScreen.start selectedSegmentIndex defaults location
      (ListScreen.machine P contents).run start es = some s →
        let c := ListScreen.fetches P contents start es
        let votes := (ListScreen.machine P contents).history ListScreen.votes [] start es
        (s.messages : Multiset Yak) = votes.foldl replaceCopy (c.latest.getD []) ∧
        (∀ v ∈ votes, ∃ n, v.2 = v.1.addLikes n) ∧
        (s.messages : Multiset Yak).map Yak.unvoted =
          (c.latest.getD [] : Multiset Yak).map Yak.unvoted ∧
        (c.UpToDate → c.latest = c.newest)) ∧
    ∀ (defaults : UserDefaults D) (es : List MapScreen.Event) (s : MapScreen D),
      (MapScreen.machine D).run (MapScreen.initial defaults) es = some s →
        let c := MapScreen.fetches (MapScreen.initial defaults) es
        s.vc.messages.getD [] = (if c.discarded then [] else c.latest.getD []) ∧
        (c.UpToDate → c.latest = c.newest) := by
  refine ⟨?_, ?_⟩
  · intro P contents selectedSegmentIndex defaults location es s start hrun c votes
    have hfetched : s.Fetched c votes :=
      Machine.history_induction₂ (I := fun s c vs => s.Fetched c vs)
        (fun hs ht => ListScreen.Fetched.step hs ht) (ListScreen.fetched_start ..) hrun
    exact ⟨hfetched.messages, hfetched.likes, hfetched.unvoted, fun hc =>
      (Calls.newest_eq_latest hfetched.wellFormed hc).symm⟩
  · intro defaults es s hrun c
    have hcontent := Machine.register_eq_content (fun s : MapScreen D => s.outstanding.length)
      (I := fun _ => True) (fun _ _ => trivial)
      (fun _ ht => (MapScreen.moves_register_step ht).1)
      (fun _ ht => (MapScreen.moves_register_step ht).2) trivial rfl hrun
    have hwf := Machine.wellFormed_calls (fun s : MapScreen D => s.outstanding.length)
      (I := fun _ => True) (fun _ _ => trivial)
      (fun _ ht => (MapScreen.moves_register_step ht).1) trivial hrun
    refine ⟨?_, fun hc => (Calls.newest_eq_latest hwf hc).symm⟩
    simp only [Calls.content, Option.map_id_fun, id_eq] at hcontent
    exact hcontent

/-- Two fetches are outstanding on each screen, and arrive in the order of issue; a yak of the
second result is voted for on the list screen. -/
theorem messages_eq_latest_in_order :
    let yak : Yak := ⟨"user", "image_0.jpg", ⟨0, 0⟩, 0, 0, []⟩
    let yak' : Yak := ⟨"user", "image_1.jpg", ⟨1, 1⟩, 0, 5, []⟩
    let es : List (ListScreen.Event ℕ) := [.pullToRefresh, .deliver 0 [yak],
      .deliver 0 [yak', yak], .layout [0, 1], .vote .up 1]
    let es' : List MapScreen.Event := [.viewDidLoad (some ⟨0, 0⟩), .viewDidAppear (some ⟨0, 0⟩),
      .deliver 0 [yak], .deliver 0 [yak']]
    (∃ s, (ListScreen.machine Platform.discrete fun _ => []).run
        (ListScreen.start 0 .empty (some ⟨0, 0⟩)) es = some s ∧
      (s.messages : Multiset Yak).map Yak.unvoted = ([yak', yak] : Multiset Yak).map Yak.unvoted) ∧
    ∃ s, (MapScreen.machine ℕ).run (MapScreen.initial .empty) es' = some s ∧
      s.vc.messages.getD [] = [yak'] ∧
      some [yak'] =
        (MapScreen.fetches (MapScreen.initial (.empty : UserDefaults ℕ)) es').newest := by
  intro yak yak' es es'
  have hlist : (ListScreen.machine Platform.discrete fun _ => []).run
    (ListScreen.start 0 .empty (some ⟨0, 0⟩)) es = some _ := rfl
  have hmap : (MapScreen.machine ℕ).run (MapScreen.initial .empty) es' = some _ := rfl
  refine ⟨⟨_, hlist, ?_⟩, _, hmap, ?_, ?_⟩
  · exact (messages_eq_latest.1 _ _ _ _ _ _ _ hlist).2.2.1
  · exact (messages_eq_latest.2 _ _ _ hmap).1
  · refine (messages_eq_latest.2 _ _ _ hmap).2 fun last hlast p hp => ?_
    obtain rfl : (1, [yak']) = last := Option.some.inj hlast
    have hp : p ∈ [(0, [yak]), (1, [yak'])] := hp
    rcases List.mem_pair.mp hp with rfl | rfl
    · exact Nat.zero_le 1
    · exact le_refl 1

/-- **A stale fetch wins.** Two fetches are outstanding on each screen. The second one arrives
first, and the result of the first one replaces its result. On the map screen, the result is also
gone when the screen appears without a location. -/
theorem stale_fetch_wins :
    let yak : Yak := ⟨"user", "image_0.jpg", ⟨0, 0⟩, 0, 0, []⟩
    let yak' : Yak := ⟨"user", "image_1.jpg", ⟨1, 1⟩, 0, 5, []⟩
    (∃ s, let es := [.pullToRefresh, .deliver 1 [yak'], .deliver 0 [yak]]
      (ListScreen.machine Platform.discrete fun _ => []).run
        (ListScreen.start 0 .empty (some ⟨0, 0⟩)) es = some s ∧ s.outstanding = [] ∧
      (ListScreen.fetches Platform.discrete (fun _ => [])
        (ListScreen.start 0 .empty (some ⟨0, 0⟩)) es).newest = some [yak'] ∧
      (s.messages : Multiset Yak).map Yak.unvoted ≠ ([yak'] : Multiset Yak).map Yak.unvoted) ∧
    (∃ s, let es := [.viewDidLoad (some ⟨0, 0⟩), .viewDidAppear (some ⟨0, 0⟩), .deliver 1 [yak'],
        .deliver 0 [yak]]
      (MapScreen.machine ℕ).run (MapScreen.initial .empty) es = some s ∧ s.outstanding = [] ∧
      (MapScreen.fetches (MapScreen.initial (.empty : UserDefaults ℕ)) es).newest = some [yak'] ∧
      (s.vc.messages.getD [] : Multiset Yak).map Yak.unvoted ≠
        ([yak'] : Multiset Yak).map Yak.unvoted) ∧
    ∃ s, let es := [.viewDidLoad (some ⟨0, 0⟩), .deliver 0 [yak'], .viewDidAppear none]
      (MapScreen.machine ℕ).run (MapScreen.initial .empty) es = some s ∧ s.outstanding = [] ∧
      (MapScreen.fetches (MapScreen.initial (.empty : UserDefaults ℕ)) es).newest = some [yak'] ∧
      s.vc.messages.getD [] = [] := by
  intro yak yak'
  refine ⟨⟨_, rfl, rfl, rfl, ?_⟩, ⟨_, rfl, rfl, rfl, ?_⟩, _, rfl, rfl, rfl, rfl⟩
  · decide
  · decide

end SnapYak
