import SnapYak.Devices.World

/-!
# What the devices know of the collection

Every copy of a yak that a screen holds, every update that is outstanding and every entry of the
lists of votes is about a yak that is stored. Documents are never removed and keep their
`image_url`, so this survives any interleaving, and an update finds its document whenever its
snapshot is taken.

## Main definitions

* `Device.Knows` : what a device knows of a collection.
* `World.Sound` : the invariant of a world.
* `World.Initial` : a collection of new yaks, and devices that have not been used.

## Main results

* `World.Sound.step` : every step preserves the invariant.
* `World.Sound.lost_eq_zero` : an update is lost only when a call fails.
* `World.Sound.signal_ne_trap` : the forced cast of `fetchYaks` never traps.
-/

namespace SnapYak

/-! ### Devices -/

namespace Device

variable {D : Type}

/-- The yaks that a device holds or has voted for are stored, and its lists record its ballots. -/
structure Knows (d : Device D) (docs : List Document) : Prop where
  copies : ∀ y ∈ d.copies, (stored docs y.imageUrl).isSome
  votes : Represents d.defaults d.defaults.ballot
  voted : ∀ dir, ∀ u ∈ d.defaults.voted dir, (stored docs u).isSome

namespace Knows

variable {d d' : Device D} {docs docs' : List Document}

theorem mono (h : d.Knows docs) (hp : Preserved docs docs') : d.Knows docs' :=
  ⟨fun y hy => hp.isSome_stored (h.copies y hy), h.votes, fun dir u hu =>
    hp.isSome_stored (h.voted dir u hu)⟩

/-- An action is about yaks that the device knows. -/
theorem act (h : d.Knows docs) {a : Action D} {calls : Calls D} (he : d.Effect a d' calls) :
    d'.Knows docs ∧
      ∀ c ∈ calls.filterMap Request.call?, (stored docs c.2.1.imageUrl).isSome := by
  cases he with
  | quiet htapped hreplied hcalls hvoted hcopies =>
    refine ⟨⟨fun y hy => h.copies y (hcopies y hy), h.votes.congr hvoted, fun dir u hu =>
      h.voted dir u (hvoted dir ▸ hu)⟩, fun c hc => ?_⟩
    obtain ⟨r, hr, hrc⟩ := List.mem_filterMap.mp hc
    rw [hcalls r hr] at hrc
    exact absurd hrc (by simp)
  | @vote dir yak htapped hreplied hyak hdefaults hcopies =>
    obtain ⟨hrep, hcopy, -⟩ := h.votes.vote dir yak
    have hstored := h.copies yak hyak
    refine ⟨⟨fun y hy => ?_, ?_, fun dir' u hu => ?_⟩, fun c hc => ?_⟩
    · rcases hcopies y hy with hy | rfl
      · exact h.copies y hy
      · rw [hcopy]
        exact hstored
    · rw [hdefaults, hrep.ballot_eq]
      exact hrep
    · rw [hdefaults, hrep.mem_voted] at hu
      by_cases hne : u = yak.imageUrl
      · exact hne ▸ hstored
      · rw [tapBallots, Function.update_of_ne hne, ← h.votes.mem_voted] at hu
        exact h.voted dir' u hu
    · rw [filterMap_call?_vote, hcopy] at hc
      obtain rfl := List.mem_singleton.mp hc
      exact hstored
  | @reply yak comment htapped hreplied hyak hvoted hcopies =>
    have hstored := h.copies yak hyak
    refine ⟨⟨fun y hy => ?_, h.votes.congr hvoted, fun dir u hu =>
      h.voted dir u (hvoted dir ▸ hu)⟩, fun c hc => ?_⟩
    · rcases hcopies y hy with hy | rfl
      · exact h.copies y hy
      · exact hstored
    · obtain rfl := List.mem_singleton.mp hc
      exact hstored

/-- A completion hands over yaks that are stored. -/
theorem complete [LinearOrder D] {P : Platform D} (h : d.Knows docs) {k : Completion}
    {yaks : List Yak} (hyaks : ∀ y ∈ yaks, (stored docs y.imageUrl).isSome) :
    (d.complete P k yaks).Knows docs := by
  refine ⟨fun y hy => ?_, ?_, ?_⟩
  · rcases mem_copies_complete hy with hy | hy
    · exact h.copies y hy
    · exact hyaks y hy
  · rw [defaults_complete]
    exact h.votes
  · rw [defaults_complete]
    exact h.voted

end Knows

end Device

/-! ### Worlds -/

namespace World

variable {ι D : Type}

/-- The invariant of a world. -/
structure Sound (s : World ι D) : Prop where
  integrity : s.remote.Integrity
  devices : ∀ i, (s.devices i).Knows s.remote.docs
  /-- The target of an update is stored, also in the snapshot of the update. -/
  updates : ∀ r ∈ s.remote.reads, ∀ c, r.call? = some c →
    (stored s.remote.docs c.2.1.imageUrl).isSome ∧
      ∀ docs, r.rawSnapshot = some docs → (stored docs c.2.1.imageUrl).isSome
  /-- The yaks that are about to be created have no votes and no comments. -/
  adds : ∀ y ∈ s.remote.adds, y.likes = 0 ∧ y.comments = []

namespace Sound

variable {s t : World ι D}

/-- The reads after an action are those before it and the ones of its calls. -/
theorem updates_issued (h : Sound s) {calls : List (Request (ι × Completion) (ι × Yak) D)}
    {remote : Remote (ι × Completion) (ι × Yak) D} (hi : s.remote.Issued calls remote)
    (hcalls : ∀ c ∈ calls.filterMap Request.call?, (stored s.remote.docs c.2.1.imageUrl).isSome) :
    ∀ r ∈ remote.reads, ∀ c, r.call? = some c → (stored remote.docs c.2.1.imageUrl).isSome ∧
      ∀ docs, r.rawSnapshot = some docs → (stored docs c.2.1.imageUrl).isSome := by
  obtain ⟨rs, hrs, hcall, hsnap⟩ := hi.reads
  intro r hr c hc
  rw [hi.docs]
  rcases List.mem_append.mp (hrs ▸ hr) with hr | hr
  · exact h.updates r hr c hc
  · refine ⟨hcalls c (hcall ▸ List.mem_filterMap.mpr ⟨r, hr, hc⟩), fun docs hdocs => ?_⟩
    rw [hsnap r hr] at hdocs
    exact absurd hdocs (by simp)

/-- An update is lost only when a call fails. -/
theorem lost_eq_zero (h : Sound s) {g : Signal} (hg : g.Succeeds) : s.remote.lost g = 0 := by
  cases g with
  | deliver n =>
    simp only [Remote.lost]
    split
    · rename_i f target c docs hread
      have hsome := (h.updates _ (List.mem_of_getElem? hread) (f, target, c) rfl).2 docs rfl
      have hmatch := isSome_firstMatch (isSome_stored_iff.mp hsome)
      rw [if_neg (by simpa using Option.isSome_iff_ne_none.mp hmatch)]
    · rfl
  | fail n | reject n | failPut n | failCreate n => exact hg.elim
  | _ => rfl

variable [LinearOrder D] {P : Platform D}

/-- A signal leaves the updates with targets that are stored. -/
theorem updates_signal (h : Sound s) {g : Signal} {o : Outcome (ι × Completion)}
    {remote : Remote (ι × Completion) (ι × Yak) D}
    (he : Remote.Effect P.distance s.remote g remote o) :
    ∀ r ∈ remote.reads, ∀ c, r.call? = some c → (stored remote.docs c.2.1.imageUrl).isSome ∧
      ∀ docs, r.rawSnapshot = some docs → (stored docs c.2.1.imageUrl).isSome := by
  have hp := (h.integrity.docs_signal he).2
  intro r hr c hc
  rcases he.reads_cases hr with hr | ⟨r₀, hr₀, rfl⟩
  · obtain ⟨hstored, hsnap⟩ := h.updates r hr c hc
    exact ⟨hp.isSome_stored hstored, hsnap⟩
  · obtain ⟨hstored, -⟩ := h.updates r₀ hr₀ c hc
    exact ⟨hp.isSome_stored hstored, fun docs hdocs => Option.some.inj hdocs ▸ hstored⟩

theorem adds_signal (h : Sound s) {g : Signal} {o : Outcome (ι × Completion)}
    {remote : Remote (ι × Completion) (ι × Yak) D}
    (he : Remote.Effect P.distance s.remote g remote o) :
    ∀ y ∈ remote.adds, y.likes = 0 ∧ y.comments = [] := by
  intro y hy
  rcases he.adds_cases hy with hy | ⟨fileName, loc, date, rfl⟩
  · exact h.adds y hy
  · exact ⟨rfl, rfl⟩

/-- The value of a field after a signal: that of an update that lands on it, or the one before. -/
theorem storedValue_signal (h : Sound s) {β : Type} {f : Field} {value : Yak → β} {new : β}
    (hvalue : f.IsValue value new) {g : Signal} {o : Outcome (ι × Completion)}
    {remote : Remote (ι × Completion) (ι × Yak) D}
    (he : Remote.Effect P.distance s.remote g remote o) (url : String) :
    storedValue value new remote.docs url =
      ((s.remote.applied (.signal g)).map Write.call).toList.foldl
        (fun v c => if c.1 = f ∧ c.2.1.imageUrl = url then value c.2.1 else v)
        (storedValue value new s.remote.docs url) := by
  cases he with
  | @apply n w hw =>
    simp only [Remote.applied, hw, Option.map_some, Option.toList_some, List.foldl_cons,
      List.foldl_nil, Write.call]
    rw [storedValue, h.integrity.stored_apply hw]
    by_cases hurl : w.targetYak.imageUrl = url
    · obtain ⟨y, hy⟩ : ∃ y, stored s.remote.docs url = some y := by
        obtain ⟨d, hd, -, hdurl⟩ := h.integrity.exists_target hw
        exact Option.isSome_iff_exists.mp (isSome_stored_iff.mpr ⟨d, hd, hurl ▸ hdurl⟩)
      rw [if_pos hurl.symm, storedValue_of_stored hy, hy, Option.map_some, Option.map_some,
        Option.getD_some, hvalue.write]
      simp only [hurl, and_true]
    · rw [if_neg (Ne.symm hurl), if_neg fun h => hurl h.2]
      rfl
  | @create n id y hadd hid =>
    show storedValue value new (addDocument s.remote.docs id y.dictionary) url = _
    rw [storedValue, h.integrity.stored_create hadd hid]
    split_ifs with hurl
    -- A new document has the value of a new yak, and was not there before.
    · obtain ⟨hlikes, hcomments⟩ := h.adds y (List.mem_of_getElem? hadd)
      rw [Option.map_some, Option.getD_some, hvalue.rounded y hlikes hcomments]
      show new = storedValue value new s.remote.docs url
      rw [storedValue, hurl, (h.integrity.add_fresh hadd).1, Option.map_none, Option.getD_none]
    · rfl
  | _ => rfl

/-- Fetched yaks are stored. -/
theorem stored_of_fetched (h : Sound s) {g : Signal} {k : ι × Completion} {yaks : List Yak}
    {remote : Remote (ι × Completion) (ι × Yak) D}
    (he : Remote.Effect P.distance s.remote g remote (.completion k yaks)) {y : Yak}
    (hy : y ∈ yaks) : (stored remote.docs y.imageUrl).isSome := by
  cases he with
  | fetched hread hyaks =>
    obtain ⟨d, hd, hdy⟩ := mem_of_mem_fetchYaks hyaks hy
    have hp := h.integrity.snapshots _ (List.mem_of_getElem? hread) _ rfl
    refine hp.isSome_stored (isSome_stored_iff.mpr ⟨d, hd, ?_⟩)
    rw [Document.url?, hdy, Option.map_some]

/-- The forced cast of `fetchYaks` never traps. -/
theorem signal_ne_trap (h : Sound s) {g : Signal} {remote : Remote (ι × Completion) (ι × Yak) D} :
    s.remote.signal P.distance g ≠ some (remote, .trap) := by
  intro hsignal
  cases Remote.effect_of_signal hsignal with
  | @trapped n loc radius k docs hread htrap =>
    have hp := h.integrity.snapshots _ (List.mem_of_getElem? hread) docs rfl
    have hsome : (fetchYaks P.distance loc radius docs).isSome :=
      isSome_fetchLoop (fun d hd => hp.decodes h.integrity.wellFormed hd) []
    rw [htrap] at hsome
    exact absurd hsome (by simp)

variable [DecidableEq ι] [Zero D] [OfNat D 10000000]

/-- **The invariant.** Every action and every signal preserves it. -/
theorem step (h : Sound s) {e : Event ι D} (ht : (machine ι P).step s e = some t) : Sound t := by
  cases effect_of_step ht with
  | @act i a d calls remote hact hissue =>
    have hi := Remote.issued_of_issueAll hissue
    obtain ⟨hd, hcalls⟩ := (h.devices i).act hact
    refine ⟨h.integrity.issueAll hissue, fun j => ?_, h.updates_issued hi fun c hc => ?_, ?_⟩
    · show (Function.update s.devices i d j).Knows remote.docs
      rw [hi.docs]
      by_cases hj : j = i
      · rw [hj, Function.update_self]
        exact hd
      · rw [Function.update_of_ne hj]
        exact h.devices j
    · rw [Request.filterMap_call?_tag] at hc
      obtain ⟨c', hc', rfl⟩ := List.mem_map.mp hc
      exact hcalls c' hc'
    · show ∀ y ∈ remote.adds, _
      rw [hi.adds]
      exact h.adds
  | signal he =>
    have hp := (h.integrity.docs_signal he).2
    exact ⟨h.integrity.signal he, fun i => (h.devices i).mono hp, h.updates_signal he,
      h.adds_signal he⟩
  | @completed g remote i k yaks he =>
    have hp := (h.integrity.docs_signal he).2
    refine ⟨h.integrity.signal he, fun j => ?_, h.updates_signal he, h.adds_signal he⟩
    show (Function.update s.devices i _ j).Knows remote.docs
    by_cases hj : j = i
    · rw [hj, Function.update_self]
      exact ((h.devices i).mono hp).complete fun y hy => h.stored_of_fetched he hy
    · rw [Function.update_of_ne hj]
      exact (h.devices j).mono hp

theorem run (h : Sound s) {es : List (Event ι D)} (ht : (machine ι P).run s es = some t) :
    Sound t :=
  Machine.run_invariant (fun h ht => Sound.step h ht) h ht

end Sound

/-! ### The beginning of a run -/

/-- A collection of yaks without votes and comments, and devices that have not been used. -/
structure Initial (s : World ι D) : Prop where
  quiescent : s.remote.Quiescent
  wellFormed : WellFormed s.remote.docs
  /-- The names in use are known to be so. -/
  uploads : ∀ url, (stored s.remote.docs url).isSome → url ∈ s.remote.uploads.map Prod.fst
  fresh : ∀ url y, stored s.remote.docs url = some y → y.likes = 0 ∧ y.comments = []
  copies : ∀ i, (s.devices i).copies = []
  voted : ∀ i dir, (s.devices i).defaults.voted dir = []

theorem Initial.sound {s : World ι D} (h : Initial s) : Sound s := by
  obtain ⟨⟨hreads, hwrites, hputs, hadds⟩, hwell, huploads, -, hcopies, hvoted⟩ := h
  have hnames : s.remote.pendingNames = [] := by
    rw [Remote.pendingNames, hputs, hadds]
    rfl
  refine ⟨⟨hwell, by simp [hreads], by simp [hwrites], by simp [hnames], by simp [hnames],
    by simp [hnames], huploads⟩, fun i => ⟨by simp [hcopies], ?_, by simp [hvoted]⟩,
    by simp [hreads], by simp [hadds]⟩
  have hballot (u : String) : (s.devices i).defaults.ballot u = .none := by
    simp [UserDefaults.ballot, hvoted]
  exact ⟨fun dir u => by simp [hvoted, hballot, dir.ballot_ne_none.symm], by simp [hvoted]⟩

/-- One document, and devices at one place that have not been used. -/
def single [OfNat D 10000000] (y : Yak) (location : GeoPoint) : World ι D where
  remote := { Remote.empty with
    docs := addDocument [] 0 y.dictionary, uploads := [(y.imageUrl, [])] }
  devices _ := .unused (some location)

theorem initial_single [OfNat D 10000000] {y : Yak} (hlikes : y.likes = 0)
    (hcomments : y.comments = []) (location : GeoPoint) :
    Initial (single y location : World ι D) := by
  have hstored (url : String) : stored (addDocument [] 0 y.dictionary) url =
      if url = y.imageUrl then some y.rounded else none :=
    stored_addDocument wellFormed_nil (by simp) rfl url
  refine ⟨⟨rfl, rfl, rfl, rfl⟩, wellFormed_nil.addDocument (by simp) rfl, fun url hurl => ?_,
    fun url z hz => ?_, fun _ => rfl, fun _ => UserDefaults.voted_empty⟩
  · simp only [single, hstored] at hurl
    split_ifs at hurl with hu
    · simp [single, hu]
    · simp at hurl
  · simp only [single, hstored] at hz
    split_ifs at hz
    obtain rfl := Option.some.inj hz
    exact ⟨hlikes, hcomments⟩

end World

end SnapYak
