import SnapYak.Store.Integrity

/-!
# The updates of one yak

The outstanding updates form a queue: a new one joins at its end. When callbacks run and writes land
in the order in which they were issued, and none fails, its head is the one to land. Nothing makes
them do so: each update reads the collection on its own, and the value that it writes was captured
when it was issued.

So among several updates of a field of one yak, the one that lands last is decisive, which need not
be the one that was issued last (`Remote.stored_eq_last_landed`). The other documents of the
collection may be anything, also such that do not decode.

## Main definitions

* `Remote.queue` : the outstanding updates in order.
* `HeldBy` : a document is the only one with an `image_url`.
* `Remote.Pointed` : all outstanding calls are updates of one field of one yak.

## Main results

* `Remote.queue_signal` : the head of the queue is the update that lands.
* `Remote.Pointed.step` : nothing goes astray.
* `Remote.stored_eq_last_landed` : the last update that landed.
-/

namespace SnapYak

/-- A signal by which no call overtakes another. -/
def Signal.InOrder : Signal → Prop
  | deliver n | apply n => n = 0
  | _ => True

instance : (g : Signal) → Decidable g.InOrder
  | .deliver n | .apply n => inferInstanceAs (Decidable (n = 0))
  | .snapshot _ | .fail _ | .reject _ | .store _ | .complete .. | .failPut _ | .create ..
  | .failCreate _ => isTrue trivial

namespace Remote

variable {κ τ D : Type}

/-- The outstanding updates in the order of issue: those whose write is on its way, and those whose
callback has not run. -/
def queue (s : Remote κ τ D) : List (Field × Yak × τ) :=
  s.writes.map Write.call ++ s.reads.filterMap Read.call?

variable {s t : Remote κ τ D}

/-- An element without an image may go. -/
theorem filterMap_eraseIdx {α β : Type*} {f : α → Option β} {l : List α} {n : ℕ} {a : α}
    (h : l[n]? = some a) (hf : f a = none) : (l.eraseIdx n).filterMap f = l.filterMap f := by
  induction l generalizing n with
  | nil => rfl
  | cons b l ih =>
    cases n with
    | zero =>
      obtain rfl : b = a := by simpa using h
      rw [List.eraseIdx_cons_zero, List.filterMap_cons_none hf]
    | succ n =>
      rw [List.eraseIdx_cons_succ, List.filterMap_cons, List.filterMap_cons, ih (by simpa using h)]

/-- A list begins with its first element. -/
theorem eq_cons_eraseIdx_zero {α : Type*} {l : List α} {a : α} (h : l[0]? = some a) :
    l = a :: l.eraseIdx 0 := by
  cases l with
  | nil => simp at h
  | cons b l =>
    obtain rfl : b = a := by simpa using h
    rfl

section Signal

variable [LE D] [DecidableLE D] {distance : GeoPoint → GeoPoint → D}

/-- **The queue.** A signal that loses no update takes the one that lands from the head of the
queue. -/
theorem queue_signal {g : Signal} {o : Outcome κ} (he : Effect distance s g t o)
    (horder : g.InOrder) (hlost : s.lost g = 0) :
    s.queue = ((s.applied (.signal g)).map Write.call).toList ++ t.queue := by
  cases he with
  | snapshot hr =>
    exact congrArg (s.writes.map Write.call ++ ·) (filterMap_call?_set hr _).symm
  | fetched hr _ | trapped hr _ =>
    exact congrArg (s.writes.map Write.call ++ ·) (filterMap_eraseIdx hr rfl).symm
  | @found n f target c docs id hr hid =>
    subst horder
    show s.writes.map Write.call ++ s.reads.filterMap Read.call? =
      (s.writes ++ [(⟨id, f, target, c⟩ : Write τ)]).map Write.call ++ _
    rw [List.map_append, List.append_assoc]
    conv_lhs => rw [eq_cons_eraseIdx_zero hr]
    rfl
  | missed hr hnone => simp [lost, hr, hnone] at hlost
  | @fail n r hr =>
    have hcall : r.call? = none := by simpa [lost, hr] using hlost
    exact congrArg (s.writes.map Write.call ++ ·) (filterMap_eraseIdx hr hcall).symm
  | @apply n w hw =>
    subst horder
    simp only [applied, hw, Option.map_some, Option.toList_some]
    show s.writes.map Write.call ++ _ = w.call :: ((s.writes.eraseIdx 0).map Write.call ++ _)
    conv_lhs => rw [eq_cons_eraseIdx_zero hw]
    rfl
  | reject hw => simp [lost, hw] at hlost
  | _ => rfl

end Signal

end Remote

/-! ### One document with an `image_url` -/

/-- The document with this identifier is the one that decodes to a yak with the `image_url`. -/
structure HeldBy (docs : List Document) (url : String) (id : ℕ) : Prop where
  exists_doc : ∃ d ∈ docs, d.documentID = id
  url?_iff : ∀ d ∈ docs, d.url? = some url ↔ d.documentID = id

namespace HeldBy

variable {docs : List Document} {url : String} {id : ℕ}

theorem of_existsUnique (hids : (docs.map Document.documentID).Nodup)
    (h : ∃! d, d ∈ docs ∧ d.url? = some url) : ∃ id, HeldBy docs url id := by
  obtain ⟨d, ⟨hd, hurl⟩, huniq⟩ := h
  refine ⟨d.documentID, ⟨d, hd, rfl⟩, fun e he => ⟨fun heurl => ?_, fun hid => ?_⟩⟩
  · rw [huniq e ⟨he, heurl⟩]
  · rwa [List.inj_on_of_nodup_map hids he hd hid]

theorem firstMatch_eq (h : HeldBy docs url id) {target : Yak} (ht : target.imageUrl = url) :
    firstMatch target docs = some id := by
  obtain ⟨d, hd, hid⟩ := h.exists_doc
  have hfound : (firstMatch target docs).isSome :=
    isSome_firstMatch ⟨d, hd, ht ▸ (h.url?_iff d hd).mpr hid⟩
  obtain ⟨id', hid'⟩ := Option.isSome_iff_exists.mp hfound
  obtain ⟨e, he, rfl, heurl⟩ := firstMatch_eq_some hid'
  rw [hid', (h.url?_iff e he).mp (ht ▸ heurl)]

/-- The document that is overwritten decodes. -/
theorem yak?_isSome (h : HeldBy docs url id) {d : Document} (hd : d ∈ docs)
    (hid : d.documentID = id) : d.yak?.isSome := by
  have := congrArg Option.isSome ((h.url?_iff d hd).mpr hid)
  simpa [Document.url?] using this

theorem updateData (h : HeldBy docs url id) (f : Field) (t : Yak) :
    HeldBy (updateData docs id (f.payload t)) url id where
  exists_doc := by
    obtain ⟨d, hd, hid⟩ := h.exists_doc
    refine ⟨_, mem_updateData_of_mem f t hd id, ?_⟩
    rw [if_pos hid]
    exact hid
  url?_iff d' hd' := by
    obtain ⟨d, hd, rfl⟩ := (mem_updateData f t).mp hd'
    by_cases hid : d.documentID = id
    · have hurl := (h.url?_iff d hd).mpr hid
      rw [if_pos hid, Document.url?, yak?_merge_payload f t (h.yak?_isSome hd hid), Option.map_map]
      refine iff_of_true ?_ hid
      rw [← hurl, Document.url?]
      exact congrArg (fun g => d.yak?.map g) (funext fun y => f.imageUrl_write t y)
    · rw [if_neg hid]
      exact h.url?_iff d hd

end HeldBy

/-- **Overwriting a field of the document that holds an `image_url`**, among documents of any
kind. -/
theorem stored_updateData_of_heldBy {url : String} {id : ℕ} (f : Field) (t : Yak) :
    (docs : List Document) → (∀ d ∈ docs, d.url? = some url ↔ d.documentID = id) →
      stored (updateData docs id (f.payload t)) url = (stored docs url).map (f.write t)
  | [], _ => rfl
  | d :: docs, h => by
    have ih := stored_updateData_of_heldBy f t docs fun e he => h e (List.mem_cons_of_mem _ he)
    have hd := h d List.mem_cons_self
    simp only [stored, updateData, List.map_cons, List.filterMap_cons] at ih ⊢
    by_cases hid : d.documentID = id
    · obtain ⟨y, hy, hurl⟩ := Option.map_eq_some_iff.mp (hd.mpr hid)
      rw [if_pos hid, yak?_merge_payload f t (by rw [hy]; rfl), hy]
      simp [hurl]
    · rw [if_neg hid]
      cases hy : d.yak? with
      | none => exact ih
      | some y =>
        have hne : y.imageUrl ≠ url := fun hurl => hid (hd.mp (by
          rw [Document.url?, hy, Option.map_some, hurl]))
        simpa [hne] using ih

/-! ### Runs of updates of one field -/

namespace Remote

variable {κ τ D : Type}

/-- A step of a run in which only the field `f` of the yaks with this `image_url` is updated, and no
call fails. -/
def Event.Updates (f : Field) (url : String) : Event κ τ D → Prop
  | .issue (.getDocuments (.update f' target _)) => f' = f ∧ target.imageUrl = url
  | .issue _ => False
  | .signal g => g.Succeeds

/-- A step by which no call overtakes another. -/
def Event.InOrder : Event κ τ D → Prop
  | .issue _ => True
  | .signal g => g.InOrder

instance (f : Field) (url : String) : (e : Event κ τ D) → Decidable (e.Updates f url)
  | .issue (.getDocuments (.update f' target _)) =>
    inferInstanceAs (Decidable (f' = f ∧ target.imageUrl = url))
  | .issue (.getDocuments (.fetchYaks ..)) | .issue (.putData ..) => isFalse id
  | .signal g => inferInstanceAs (Decidable g.Succeeds)

instance : (e : Event κ τ D) → Decidable e.InOrder
  | .issue _ => isTrue trivial
  | .signal g => inferInstanceAs (Decidable g.InOrder)

/-- The update that a step issues. -/
def Event.call? : Event κ τ D → Option (Field × Yak × τ)
  | .issue r => r.call?
  | .signal _ => none

/-- The update that a step lets land. -/
def landed? (s : Remote κ τ D) (e : Event κ τ D) : Option (Field × Yak × τ) :=
  (s.applied e).map Write.call

/-- All outstanding calls are updates of the field `f` of the yak with this `image_url`, and know or
will find its document. -/
structure Pointed (f : Field) (url : String) (id : ℕ) (s : Remote κ τ D) : Prop where
  docs : HeldBy s.docs url id
  snapshots : ∀ r ∈ s.reads, ∀ docs, r.rawSnapshot = some docs → HeldBy docs url id
  reads : ∀ r ∈ s.reads, ∃ target c, r.callback = .update f target c ∧ target.imageUrl = url
  writes : ∀ w ∈ s.writes, w.documentID = id ∧ w.field = f ∧ w.targetYak.imageUrl = url
  puts : s.puts = []
  adds : s.adds = []

namespace Pointed

variable {f : Field} {url : String} {id : ℕ} {s t : Remote κ τ D}

theorem of_quiescent (hs : s.Quiescent) (hdocs : HeldBy s.docs url id) : Pointed f url id s where
  docs := hdocs
  snapshots := by simp [hs.1]
  reads := by simp [hs.1]
  writes := by simp [hs.2.1]
  puts := hs.2.2.1
  adds := hs.2.2.2

/-- The collection is as it was, and there are fewer calls. -/
theorem mono (h : Pointed f url id s) (hdocs : t.docs = s.docs)
    (hreads : ∀ r ∈ t.reads, r ∈ s.reads) (hwrites : ∀ w ∈ t.writes, w ∈ s.writes)
    (hputs : t.puts = s.puts) (hadds : t.adds = s.adds) : Pointed f url id t where
  docs := hdocs ▸ h.docs
  snapshots r hr := h.snapshots r (hreads r hr)
  reads r hr := h.reads r (hreads r hr)
  writes w hw := h.writes w (hwrites w hw)
  puts := hputs ▸ h.puts
  adds := hadds ▸ h.adds

theorem issue (h : Pointed f url id s) {r : Request κ τ D}
    (hr : (Event.issue r).Updates f url) (ht : s.issue r = some t) : Pointed f url id t := by
  cases r with
  | putData guid data => exact hr.elim
  | getDocuments cb =>
    cases cb with
    | fetchYaks loc radius k => exact hr.elim
    | update f' target c =>
      obtain ⟨rfl, hurl⟩ := hr
      obtain rfl := Option.some.inj ht
      refine ⟨h.docs, fun r hr docs hdocs => ?_, fun r hr => ?_, h.writes, h.puts, h.adds⟩
      · rcases List.mem_append.mp hr with hr | hr
        · exact h.snapshots r hr docs hdocs
        · simp [List.mem_singleton.mp hr] at hdocs
      · rcases List.mem_append.mp hr with hr | hr
        · exact h.reads r hr
        · obtain rfl := List.mem_singleton.mp hr
          exact ⟨target, c, rfl, hurl⟩

/-- A callback that runs finds the document. -/
theorem firstMatch_eq (h : Pointed f url id s) {n : ℕ} {f' : Field} {target : Yak} {c : τ}
    {docs : List Document} (hread : s.reads[n]? = some ⟨.update f' target c, some docs⟩) :
    f' = f ∧ target.imageUrl = url ∧ firstMatch target docs = some id := by
  have hmem := List.mem_of_getElem? hread
  obtain ⟨target', c', hcb, hurl⟩ := h.reads _ hmem
  obtain ⟨rfl, rfl, rfl⟩ := Callback.update.inj hcb
  exact ⟨rfl, hurl, (h.snapshots _ hmem docs rfl).firstMatch_eq hurl⟩

/-- No update is lost in a signal that is no failure. -/
theorem lost_eq_zero (h : Pointed f url id s) {g : Signal} (hg : g.Succeeds) : s.lost g = 0 := by
  cases g with
  | deliver n =>
    simp only [lost]
    split
    · rename_i hread
      rw [(h.firstMatch_eq hread).2.2]
      rfl
    · rfl
  | fail _ | reject _ | failPut _ | failCreate _ => exact hg.elim
  | _ => rfl

section Step

variable [LE D] [DecidableLE D] {distance : GeoPoint → GeoPoint → D}

/-- A signal that is no failure keeps all calls pointed at the document. -/
theorem signal (h : Pointed f url id s) {g : Signal} {o : Outcome κ} (hg : g.Succeeds)
    (he : Effect distance s g t o) : Pointed f url id t := by
  cases he with
  | @snapshot n cb hread =>
    refine ⟨h.docs, fun r hr docs hdocs => ?_, fun r hr => ?_, h.writes, h.puts, h.adds⟩
    · rcases List.mem_or_eq_of_mem_set hr with hr | rfl
      · exact h.snapshots r hr docs hdocs
      · exact Option.some.inj hdocs ▸ h.docs
    · rcases List.mem_or_eq_of_mem_set hr with hr | rfl
      · exact h.reads r hr
      · exact h.reads ⟨cb, none⟩ (List.mem_of_getElem? hread)
  | fetched _ _ | trapped _ _ | missed _ _ =>
    exact h.mono rfl (fun _ => List.mem_of_mem_eraseIdx) (fun _ hw => hw) rfl rfl
  | @found n f' target c docs id' hread hid =>
    obtain ⟨rfl, hurl, hfound⟩ := h.firstMatch_eq hread
    refine ⟨h.docs, fun r hr => h.snapshots r (List.mem_of_mem_eraseIdx hr), fun r hr =>
      h.reads r (List.mem_of_mem_eraseIdx hr), fun w hw => ?_, h.puts, h.adds⟩
    rcases List.mem_append.mp hw with hw | hw
    · exact h.writes w hw
    · obtain rfl := List.mem_singleton.mp hw
      exact ⟨Option.some.inj (hid.symm.trans hfound), rfl, hurl⟩
  | @apply n w hwrite =>
    obtain ⟨rfl, rfl, -⟩ := h.writes w (List.mem_of_getElem? hwrite)
    exact ⟨h.docs.updateData _ _, h.snapshots, h.reads, fun w' hw' =>
      h.writes w' (List.mem_of_mem_eraseIdx hw'), h.puts, h.adds⟩
  | store hput | complete hput _ => simp [h.puts] at hput
  | create hadd _ => simp [h.adds] at hadd
  | fail _ | reject _ | failPut _ | failCreate _ => exact hg.elim

theorem step (h : Pointed f url id s) {e : Event κ τ D} (hA : e.Updates f url)
    (ht : (machine κ τ distance).step s e = some t) : Pointed f url id t := by
  cases e with
  | issue r => exact h.issue hA ht
  | signal g =>
    obtain ⟨⟨t', o⟩, hsig, rfl⟩ := Option.map_eq_some_iff.mp ht
    exact h.signal hA (effect_of_signal hsig)

/-- The outstanding updates over one step, in any order. -/
theorem outstanding_step (h : Pointed f url id s) {e : Event κ τ D} (hA : e.Updates f url)
    (ht : (machine κ τ distance).step s e = some t) :
    ((s.landed? e).toList : Multiset (Field × Yak × τ)) + t.outstanding =
      s.outstanding + ((e.call?.toList : List (Field × Yak × τ)) : Multiset _) := by
  cases e with
  | issue r => exact (zero_add _).trans ((outstanding_issue ht).trans (add_comm ..))
  | signal g =>
    obtain ⟨⟨t', o⟩, hsig, rfl⟩ := Option.map_eq_some_iff.mp ht
    have hout := outstanding_signal (effect_of_signal hsig)
    rw [h.lost_eq_zero hA, zero_add] at hout
    exact hout.symm.trans (add_zero _).symm

/-- The queue over one step in which no call overtakes another. -/
theorem queue_step (h : Pointed f url id s) {e : Event κ τ D} (hA : e.Updates f url)
    (horder : e.InOrder) (ht : (machine κ τ distance).step s e = some t) :
    (s.landed? e).toList ++ t.queue = s.queue ++ e.call?.toList := by
  cases e with
  | issue r =>
    cases r with
    | putData guid data => exact hA.elim
    | getDocuments cb =>
      obtain rfl := Option.some.inj ht
      have hcall : [(⟨cb, none⟩ : Read κ τ D)].filterMap Read.call? = cb.call?.toList := by
        cases h : cb.call? <;> simp [Read.call?, h]
      show s.writes.map Write.call ++
        (s.reads ++ [(⟨cb, none⟩ : Read κ τ D)]).filterMap Read.call? = _
      rw [List.filterMap_append, hcall, ← List.append_assoc]
      rfl
  | signal g =>
    obtain ⟨⟨t', o⟩, hsig, rfl⟩ := Option.map_eq_some_iff.mp ht
    exact (queue_signal (effect_of_signal hsig) horder (h.lost_eq_zero hA)).symm.trans
      (List.append_nil _).symm

/-- What is stored changes when an update lands, and then its field is overwritten. -/
theorem stored_step (h : Pointed f url id s) {e : Event κ τ D} (hA : e.Updates f url)
    (ht : (machine κ τ distance).step s e = some t) :
    stored t.docs url =
      (stored s.docs url).map fun y => (s.landed? e).elim y fun c => f.write c.2.1 y := by
  have hsame (hdocs : t.docs = s.docs) (hland : s.landed? e = none) : stored t.docs url =
      (stored s.docs url).map fun y => (s.landed? e).elim y fun c => f.write c.2.1 y := by
    rw [hdocs, hland]
    exact Option.map_id'.symm
  cases e with
  | issue r =>
    cases r with
    | putData guid data => exact hA.elim
    | getDocuments cb =>
      obtain rfl := Option.some.inj ht
      exact hsame rfl rfl
  | signal g =>
    obtain ⟨⟨t', o⟩, hsig, rfl⟩ := Option.map_eq_some_iff.mp ht
    cases effect_of_signal hsig with
    | @apply n w hwrite =>
      obtain ⟨rfl, rfl, -⟩ := h.writes w (List.mem_of_getElem? hwrite)
      rw [stored_updateData_of_heldBy _ _ _ h.docs.url?_iff, landed?, applied, hwrite]
      rfl
    | create hadd _ => simp [h.adds] at hadd
    | _ => exact hsame rfl rfl

end Step

end Pointed

section Runs

variable [LE D] [DecidableLE D] {distance : GeoPoint → GeoPoint → D} {f : Field} {url : String}
  {s t : Remote κ τ D} {es : List (Event κ τ D)}

/-- What is stored after a run: the last update that landed has overwritten the field. -/
theorem Pointed.stored_run {id : ℕ} (hs : Pointed f url id s)
    (hA : (machine κ τ distance).Along (fun _ e => e.Updates f url) s es)
    (hrun : (machine κ τ distance).run s es = some t) :
    stored t.docs url = (stored s.docs url).map fun y =>
      ((machine κ τ distance).log (fun s e => (s.landed? e).toList) s es).getLast?.elim y
        fun c => f.write c.2.1 y := by
  refine (Machine.history_induction
    (f := fun l s e => l ++ (landed? s e).toList) (A := fun _ e => Event.Updates f url e)
    (I := fun u l => Pointed f url id u ∧ stored u.docs url =
      (stored s.docs url).map fun y => l.getLast?.elim y fun c => f.write c.2.1 y)
    ?_ ⟨hs, Option.map_id'.symm⟩ hA hrun).2
  rintro u l e v ⟨hu, hstored⟩ hA hv
  refine ⟨hu.step hA hv, ?_⟩
  rw [hu.stored_step hA hv, hstored, Option.map_map]
  congr 1
  funext y
  cases hland : u.landed? e with
  | none => simp
  | some c =>
    -- The later update hides the earlier one.
    cases hlast : l.getLast? with
    | none => simp [hlast]
    | some c' => cases f <;> simp [hlast, Field.write]

/-- **The last update to land wins.** Several updates of one field of a yak are issued, none fails,
and in the end none is outstanding. Then each has landed once, in some order, and the field is that
of the target of the one that landed last. If no call overtakes another, this is the one that was
issued last. -/
theorem stored_eq_last_landed (hs : s.Quiescent) (hids : (s.docs.map Document.documentID).Nodup)
    (hone : ∃! d, d ∈ s.docs ∧ d.url? = some url)
    (hA : (machine κ τ distance).Along (fun _ e => e.Updates f url) s es)
    (hrun : (machine κ τ distance).run s es = some t) (ht : t.Quiescent) :
    let issued := (machine κ τ distance).log (fun _ e => e.call?.toList) s es
    let landed := (machine κ τ distance).log (fun s e => (s.landed? e).toList) s es
    landed.Perm issued ∧
    stored t.docs url = (stored s.docs url).map (fun y =>
      landed.getLast?.elim y fun c => f.write c.2.1 y) ∧
    ((machine κ τ distance).Along (fun _ e => e.InOrder) s es → landed = issued) := by
  intro issued landed
  obtain ⟨id, hid⟩ := HeldBy.of_existsUnique hids hone
  have hpointed := Pointed.of_quiescent hs hid (f := f)
  have hempty {u : Remote κ τ D} (hu : u.Quiescent) : u.queue = [] := by
    simp [queue, hu.1, hu.2.1]
  have hnone {u : Remote κ τ D} (hu : u.Quiescent) : u.outstanding = 0 :=
    congrArg Multiset.ofList (hempty hu)
  refine ⟨Multiset.coe_eq_coe.mp ?_, hpointed.stored_run hA hrun, fun horder => ?_⟩
  · have h := Machine.total_add_queue (M := machine κ τ distance) (I := Pointed f url id)
      (fun hu hA hv => hu.step hA hv) (fun hu hA hv => hu.outstanding_step hA hv) hpointed hA hrun
    rw [← Machine.coe_log hrun, ← Machine.coe_log hrun] at h
    simpa only [hnone hs, hnone ht, add_zero, zero_add] using h
  · have h := Machine.log_append_queue (M := machine κ τ distance) (I := Pointed f url id)
      (A := fun _ e => e.Updates f url ∧ e.InOrder) (fun hu hA hv => hu.step hA.1 hv)
      (fun hu hA hv => hu.queue_step hA.1 hA.2 hv) hpointed (hA.and horder) hrun
    simpa only [hempty hs, hempty ht, List.append_nil, List.nil_append] using h

/-- Two replies to one yak, beside a document that does not decode. The second callback runs first,
and its write lands last. -/
theorem stored_eq_last_landed_two_replies :
    let yak := newYak "image_0.jpg" ⟨0, 0⟩ 0
    let s : Remote Unit ℕ ℕ :=
      { empty with docs := [⟨0, .ofList []⟩, ⟨1, yak.dictionary.stored⟩] }
    let es : List (Event Unit ℕ ℕ) := [
      .issue (updateComments { yak with comments := ["hi"] } 0),
      .issue (updateComments { yak with comments := ["hi", "ho"] } 0),
      .signal (.snapshot 1), .signal (.snapshot 0), .signal (.deliver 1), .signal (.deliver 0),
      .signal (.apply 1), .signal (.apply 0)]
    ∃ t, (machine Unit ℕ Platform.discrete.distance).run s es = some t ∧
      stored t.docs "image_0.jpg" = some { yak with comments := ["hi", "ho"] } := by
  intro yak s es
  obtain ⟨t, ht⟩ : ∃ t, (machine Unit ℕ Platform.discrete.distance).run s es = some t :=
    Option.isSome_iff_exists.mp (by decide +kernel)
  have hend : t.Quiescent :=
    (by decide +kernel : ∀ t ∈ (machine Unit ℕ Platform.discrete.distance).run s es,
      t.Quiescent) t ht
  have hone : ∃! d, d ∈ s.docs ∧ d.url? = some "image_0.jpg" := by
    refine ⟨⟨1, yak.dictionary.stored⟩, ⟨List.mem_cons_of_mem _ List.mem_cons_self, rfl⟩, ?_⟩
    rintro d ⟨hd, hurl⟩
    simp only [s, List.mem_cons, List.not_mem_nil, or_false] at hd
    rcases hd with rfl | rfl
    · exact absurd hurl (by decide)
    · rfl
  have h := stored_eq_last_landed (f := .comments) (by decide +kernel)
    (by decide) hone (by decide +kernel) ht hend
  refine ⟨t, ht, h.2.1.trans ?_⟩
  decide +kernel

/-- **An update that is overtaken.** A yak is voted for, and the vote is taken back at once. The
callback of the second update runs first, so that the vote is what is stored in the end. -/
theorem last_issued_overtaken :
    let yak := newYak "image_0.jpg" ⟨0, 0⟩ 0
    let s : Remote Unit ℕ ℕ := { empty with docs := [⟨0, yak.dictionary.stored⟩] }
    let es : List (Event Unit ℕ ℕ) := [
      .issue (updateYakVote { yak with likes := 1 } 0),
      .issue (updateYakVote { yak with likes := 0 } 0),
      .signal (.snapshot 0), .signal (.snapshot 1), .signal (.deliver 1), .signal (.deliver 0),
      .signal (.apply 0), .signal (.apply 0)]
    (machine Unit ℕ Platform.discrete.distance).Along (fun _ e => e.Updates .likes "image_0.jpg")
        s es ∧
      s.Quiescent ∧
      ∃ t, (machine Unit ℕ Platform.discrete.distance).run s es = some t ∧ t.Quiescent ∧
        stored t.docs "image_0.jpg" = some { yak with likes := 1 } := by
  intro yak s es
  obtain ⟨t, ht⟩ : ∃ t, (machine Unit ℕ Platform.discrete.distance).run s es = some t :=
    Option.isSome_iff_exists.mp (by decide +kernel)
  have hend : ∀ t ∈ (machine Unit ℕ Platform.discrete.distance).run s es, t.Quiescent ∧
      stored t.docs "image_0.jpg" = some { yak with likes := 1 } := by decide +kernel
  exact ⟨by decide +kernel, by decide +kernel, t, ht, hend t ht⟩

end Runs

end Remote

end SnapYak
