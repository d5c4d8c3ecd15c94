import SnapYak.Machine.Queue
import SnapYak.Store.Integrity

/-!
# Reads take place at one moment

A `getDocuments` is issued, and its callback runs much later on a snapshot of the collection; in
between other calls are issued, documents are written and created, and callbacks of older and newer
calls run. Yet the callback acts as if the whole call had taken place at one moment between the two
(`Remote.callback_atomic`), and what two calls return that do not overlap is in the order of the
calls (`Remote.monotone_reads`). A fetch that is issued after a document was created finds it
(`Remote.created_fetched`).

A call is followed through the queue of the outstanding reads by `Machine.position`.

## Main definitions

* `Remote.Event.leaves` : the position of the read that an event takes out of the queue.

## Main results

* `Remote.read_step` : what a step does to a read that stays outstanding.
* `Remote.exists_moment` : the moment at which the snapshot of a read was taken.
* `Remote.callback_atomic`, `Remote.monotone_reads` : single calls and successive ones.
* `Remote.created_fetched` : a yak in the fetches after its upload.
-/

namespace SnapYak

/-- Elements that differ in `f` are found by it. -/
theorem filter_eq_of_nodup_map {α β : Type*} [DecidableEq β] {f : α → β} {l : List α} {a : α}
    (hl : (l.map f).Nodup) (ha : a ∈ l) : l.filter (fun x => f x = f a) = [a] := by
  have hmem : a ∈ l.filter fun x => f x = f a := List.mem_filter.mpr ⟨ha, by simp⟩
  have hall : ∀ x ∈ l.filter (fun x => f x = f a), x = a := fun x hx =>
    List.inj_on_of_nodup_map hl (List.mem_of_mem_filter hx) ha
      (of_decide_eq_true (List.mem_filter.mp hx).2)
  have hle : (l.filter fun x => f x = f a).length ≤ 1 := by
    rw [← List.nodup_replicate (a := a), ← List.eq_replicate_of_mem hall]
    exact (List.Nodup.of_map f hl).filter _
  rw [List.eq_replicate_of_mem hall, le_antisymm hle (List.length_pos_of_mem hmem),
    List.replicate_one]

namespace Remote

variable {κ τ D : Type}

/-- The position of the read that an event takes out of the queue. -/
def Event.leaves : Event κ τ D → Option ℕ
  | .signal (.deliver n) | .signal (.fail n) => some n
  | _ => none

variable [LE D] [DecidableLE D] {distance : GeoPoint → GeoPoint → D} {s t : Remote κ τ D}

/-- What a step does to a read that stays outstanding: at most, its snapshot is taken. -/
theorem read_step {e : Event κ τ D} (ht : (machine κ τ distance).step s e = some t) {k k' : ℕ}
    {r : Read κ τ D} (hk : Machine.moveUp e.leaves k = some k') (hr : s.reads[k]? = some r) :
    ∃ r', t.reads[k']? = some r' ∧ r'.callback = r.callback ∧
      (r'.rawSnapshot = r.rawSnapshot ∨ r'.rawSnapshot = some s.docs) := by
  have hsame (hreads : t.reads = s.reads) (hleaves : e.leaves = none) :
      ∃ r', t.reads[k']? = some r' ∧ r'.callback = r.callback ∧
        (r'.rawSnapshot = r.rawSnapshot ∨ r'.rawSnapshot = some s.docs) := by
    rw [hleaves] at hk
    obtain rfl : k = k' := Option.some.inj hk
    exact ⟨r, hreads ▸ hr, rfl, Or.inl rfl⟩
  have herase {n : ℕ} (hreads : t.reads = s.reads.eraseIdx n) (hleaves : e.leaves = some n) :
      ∃ r', t.reads[k']? = some r' ∧ r'.callback = r.callback ∧
        (r'.rawSnapshot = r.rawSnapshot ∨ r'.rawSnapshot = some s.docs) := by
    rw [hleaves] at hk
    exact ⟨r, hreads ▸ Machine.getElem?_eraseIdx_of_moveUp hr hk, rfl, Or.inl rfl⟩
  cases e with
  | issue call =>
    cases call with
    | getDocuments cb =>
      obtain rfl := Option.some.inj ht
      obtain rfl : k = k' := Option.some.inj hk
      refine ⟨r, ?_, rfl, Or.inl rfl⟩
      rw [List.getElem?_append_left (List.getElem?_eq_some_iff.mp hr).1, hr]
    | putData guid data =>
      simp only [machine, Remote.issue] at ht
      split_ifs at ht
      obtain rfl := Option.some.inj ht
      exact hsame rfl rfl
  | signal g =>
    obtain ⟨⟨t', o⟩, hsignal, rfl⟩ := Option.map_eq_some_iff.mp ht
    cases effect_of_signal hsignal with
    | @snapshot n cb hread =>
      obtain rfl : k = k' := Option.some.inj hk
      by_cases hn : n = k
      · subst hn
        obtain rfl : ⟨cb, none⟩ = r := Option.some.inj (hread.symm.trans hr)
        refine ⟨⟨cb, some s.docs⟩, ?_, rfl, Or.inr rfl⟩
        rw [List.getElem?_set_self (List.getElem?_eq_some_iff.mp hr).1]
      · exact ⟨r, (List.getElem?_set_ne hn).trans hr, rfl, Or.inl rfl⟩
    | fetched hread hyaks => exact herase rfl rfl
    | trapped hread htrap => exact herase rfl rfl
    | found hread hid => exact herase rfl rfl
    | missed hread hnone => exact herase rfl rfl
    | fail hread => exact herase rfl rfl
    | _ => exact hsame rfl rfl

/-- **The moment of a read.** The snapshot of an outstanding read is the collection at some moment
since the read was issued. -/
theorem exists_moment {cb : Callback κ τ D} {es : List (Event κ τ D)} {n : ℕ}
    (ht : (machine κ τ distance).run s (.issue (.getDocuments cb) :: es) = some t)
    (hn : Machine.position Event.leaves s.reads.length es = some n) :
    ∃ r, t.reads[n]? = some r ∧ r.callback = cb ∧ ∀ docs, r.rawSnapshot = some docs →
      ∃ es₁ es₂ u, es = es₁ ++ es₂ ∧
        (machine κ τ distance).run s (.issue (.getDocuments cb) :: es₁) = some u ∧
        u.docs = docs := by
  obtain ⟨s₁, hs₁, ht⟩ := Machine.run_cons_eq_some.mp ht
  have hread : s₁.reads[s.reads.length]? = some ⟨cb, none⟩ := by
    obtain rfl := Option.some.inj hs₁
    exact List.getElem?_concat_length
  refine Machine.follow_induction (w := Event.leaves) (q := Remote.reads)
    (C := fun u r r' => r'.callback = r.callback ∧
      (r'.rawSnapshot = r.rawSnapshot ∨ r'.rawSnapshot = some u.docs))
    (J := fun es r => r.callback = cb ∧ ∀ docs, r.rawSnapshot = some docs → ∃ es₁ es₂ u,
      es = es₁ ++ es₂ ∧
      (machine κ τ distance).run s (.issue (.getDocuments cb) :: es₁) = some u ∧ u.docs = docs)
    (fun ht hk hr => read_step ht hk hr) ?_ hread ⟨rfl, by simp⟩ ht hn
  rintro es e u r r' hu ⟨hcb, hmoment⟩ ⟨hcb', hsnap⟩
  refine ⟨hcb'.trans hcb, fun docs hdocs => ?_⟩
  rcases hsnap with hsnap | hsnap
  · obtain ⟨es₁, es₂, v, rfl, hv, hvdocs⟩ := hmoment docs (hsnap.symm.trans hdocs)
    exact ⟨es₁, es₂ ++ [e], v, List.append_assoc .., hv, hvdocs⟩
  · exact ⟨es, [e], u, rfl, Machine.run_cons_eq_some.mpr ⟨s₁, hs₁, hu⟩,
      Option.some.inj (hsnap.symm.trans hdocs)⟩

/-- A callback acts on the collection of some moment since its call. -/
theorem exists_callback_eq {cb : Callback κ τ D} {es : List (Event κ τ D)} {n : ℕ}
    {t' : Remote κ τ D} {o : Outcome κ}
    (ht : (machine κ τ distance).run s (.issue (.getDocuments cb) :: es) = some t)
    (hn : Machine.position Event.leaves s.reads.length es = some n)
    (hdeliver : t.signal distance (.deliver n) = some (t', o)) :
    ∃ es₁ es₂ u, es = es₁ ++ es₂ ∧
      (machine κ τ distance).run s (.issue (.getDocuments cb) :: es₁) = some u ∧
      (machine κ τ distance).run u es₂ = some t ∧
      (t', o) = callback distance { t with reads := t.reads.eraseIdx n } u.docs cb := by
  obtain ⟨r, hr, rfl, hmoment⟩ := exists_moment ht hn
  simp only [signal, hr, Option.bind_eq_bind, Option.bind_some, Option.bind_eq_some_iff] at hdeliver
  obtain ⟨docs, hdocs, hdeliver⟩ := hdeliver
  obtain ⟨es₁, es₂, u, rfl, hu, rfl⟩ := hmoment docs hdocs
  refine ⟨es₁, es₂, u, rfl, hu, ?_, (Option.some.inj hdeliver).symm⟩
  rw [← List.cons_append] at ht
  obtain ⟨u', hu', ht⟩ := Machine.run_append_eq_some.mp ht
  obtain rfl : u = u' := Option.some.inj (hu.symm.trans hu')
  exact ht

/-- A collection that the app has made is read without a trap. -/
theorem Integrity.fetchYaks_eq (h : Integrity s) (loc : GeoPoint) (radius : D) :
    fetchYaks distance loc radius s.docs = some (yaksWithin distance loc radius s.docs) := by
  have hsome : (fetchLoop distance loc radius s.docs []).isSome :=
    isSome_fetchLoop h.wellFormed.decodes []
  obtain ⟨yaks, hyaks⟩ := Option.isSome_iff_exists.mp hsome
  rw [fetchYaks, hyaks, (fetchLoop_eq_some_iff.mp hyaks).2, List.nil_append]

/-- **One call takes place at one moment.** A `getDocuments` is issued in any state that the app can
bring about, and its callback runs after any further calls and signals, at the position where the
call is then. There is a moment in between such that a fetch returns exactly the yaks within its
radius at this moment, and an update writes to the document that its target had at this moment, or
nowhere if it had none. -/
theorem callback_atomic (h : Integrity s) {cb : Callback κ τ D} {es : List (Event κ τ D)} {n : ℕ}
    {t' : Remote κ τ D} {o : Outcome κ}
    (ht : (machine κ τ distance).run s (.issue (.getDocuments cb) :: es) = some t)
    (hn : Machine.position Event.leaves s.reads.length es = some n)
    (hdeliver : t.signal distance (.deliver n) = some (t', o)) :
    ∃ es₁ es₂ u, es = es₁ ++ es₂ ∧
      (machine κ τ distance).run s (.issue (.getDocuments cb) :: es₁) = some u ∧
      match cb with
      | .fetchYaks loc radius k => o = .completion k (yaksWithin distance loc radius u.docs)
      | .update f target c => o = .nothing ∧ t'.writes = t.writes ++
          ((firstMatch target u.docs).map fun id => ⟨id, f, target, c⟩).toList := by
  obtain ⟨es₁, es₂, u, hes, hu, -, hcallback⟩ := exists_callback_eq ht hn hdeliver
  refine ⟨es₁, es₂, u, hes, hu, ?_⟩
  cases cb with
  | fetchYaks loc radius k =>
    simp only [callback, (h.run hu).fetchYaks_eq loc radius, Prod.mk.injEq] at hcallback
    exact hcallback.2
  | update f target c =>
    cases hid : firstMatch target u.docs with
    | none =>
      simp only [callback, hid, Prod.mk.injEq] at hcallback
      obtain ⟨rfl, rfl⟩ := hcallback
      refine ⟨rfl, ?_⟩
      rw [hid, Option.map_none, Option.toList_none, List.append_nil]
    | some id =>
      simp only [callback, hid, Prod.mk.injEq] at hcallback
      obtain ⟨rfl, rfl⟩ := hcallback
      refine ⟨rfl, ?_⟩
      rw [hid, Option.map_some, Option.toList_some]

/-- A fetch is outstanding while two photos are uploaded, and its snapshot is taken in between. -/
theorem callback_atomic_between_uploads :
    let upload (guid : Guid) (id : ℕ) : List (Event Unit Unit ℕ) := [.issue (.putData guid [1]),
      .signal (.store 0), .signal (.complete 0 ⟨0, 0⟩ 0), .signal (.create 0 id)]
    let es := upload (.ofString "a" (by decide)) 0 ++ .signal (.snapshot 0) ::
      upload (.ofString "b" (by decide)) 1
    let fetch : Request Unit Unit ℕ := .getDocuments (.fetchYaks ⟨0, 0⟩ 0 ())
    let M := machine Unit Unit Platform.discrete.distance
    ∃ t t' yaks es₁ es₂ u, M.run empty (.issue fetch :: es) = some t ∧
      t.signal Platform.discrete.distance (.deliver 0) = some (t', .completion () yaks) ∧
      t.docs.length = 2 ∧ es = es₁ ++ es₂ ∧ M.run empty (.issue fetch :: es₁) = some u ∧
      yaks = yaksWithin Platform.discrete.distance ⟨0, 0⟩ 0 u.docs := by
  intro upload es fetch M
  have h : (M.run empty (.issue fetch :: es)).map (fun t => (t.docs.length,
      (t.signal Platform.discrete.distance (.deliver 0)).isSome)) = some (2, true) := by
    decide +kernel
  obtain ⟨t, ht, heq⟩ := Option.map_eq_some_iff.mp h
  obtain ⟨hlength, hsome⟩ := Prod.mk.inj heq
  obtain ⟨⟨t', o⟩, hdeliver⟩ := Option.isSome_iff_exists.mp hsome
  obtain ⟨es₁, es₂, u, hes, hu, ho⟩ := callback_atomic integrity_empty ht rfl hdeliver
  obtain rfl : o = .completion () (yaksWithin Platform.discrete.distance ⟨0, 0⟩ 0 u.docs) := ho
  exact ⟨t, t', _, es₁, es₂, u, ht, hdeliver, hlength, hes, hu, rfl⟩

/-- The result of a fetch is the query at some moment of the run. -/
theorem exists_eq_yaksWithin (h : Integrity s) {loc : GeoPoint} {radius : D} {k k' : κ}
    {es : List (Event κ τ D)} {n : ℕ} {t' : Remote κ τ D} {yaks : List Yak}
    (ht : (machine κ τ distance).run s (.issue (.getDocuments (.fetchYaks loc radius k)) :: es) =
      some t)
    (hn : Machine.position Event.leaves s.reads.length es = some n)
    (hdeliver : t.signal distance (.deliver n) = some (t', .completion k' yaks)) :
    ∃ es₁ es₂ u, (machine κ τ distance).run s
        (.issue (.getDocuments (.fetchYaks loc radius k)) :: es₁) = some u ∧
      (machine κ τ distance).run u es₂ = some t ∧ t'.docs = t.docs ∧
      yaks = yaksWithin distance loc radius u.docs := by
  obtain ⟨es₁, es₂, u, -, hu, hrest, hcallback⟩ := exists_callback_eq ht hn hdeliver
  simp only [callback, (h.run hu).fetchYaks_eq loc radius, Prod.mk.injEq,
    Outcome.completion.injEq] at hcallback
  obtain ⟨rfl, -, rfl⟩ := hcallback
  exact ⟨es₁, es₂, u, hu, hrest, rfl, rfl⟩

/-- A yak within the radius stays there when the collection moves on. -/
theorem exists_mem_yaksWithin {docs docs' : List Document} (hp : Preserved docs docs')
    {loc : GeoPoint} {radius : D} {y : Yak} (hy : y ∈ yaksWithin distance loc radius docs) :
    ∃ z ∈ yaksWithin distance loc radius docs', z.identity = y.identity := by
  obtain ⟨d, hd, hdy⟩ := List.mem_filterMap.mp hy
  obtain ⟨hyak, hwithin⟩ := Option.filter_eq_some_iff.mp hdy
  obtain ⟨d', hd', -, hidentity⟩ := hp d hd
  obtain ⟨z, hz, hzy⟩ : ∃ z, d'.yak? = some z ∧ z.identity = y.identity := by
    rw [Document.identity?, Document.identity?, hyak, Option.map_some] at hidentity
    exact Option.map_eq_some_iff.mp hidentity
  have hlocation : z.location = y.location := (Prod.mk.inj (Prod.mk.inj (Prod.mk.inj hzy).2).2).1
  refine ⟨z, List.mem_filterMap.mpr ⟨d', hd', Option.filter_eq_some_iff.mpr ⟨hz, ?_⟩⟩, hzy⟩
  rw [hlocation]
  exact hwithin

/-- **Successive fetches.** A fetch that is issued after another one has returned, whoever issued
them, finds every yak that the other one found at the same place: no yak is lost from sight, moved
or renamed, in whatever way calls and signals interleave. -/
theorem monotone_reads (h : Integrity s) {loc : GeoPoint} {radius : D} {k₁ k₂ : κ}
    {es₁ es es₂ : List (Event κ τ D)} {n₁ n₂ : ℕ} {s₂ t₁ t₁' t₂ t₂' : Remote κ τ D}
    {yaks₁ yaks₂ : List Yak}
    (h₁ : (machine κ τ distance).run s
      (.issue (.getDocuments (.fetchYaks loc radius k₁)) :: es₁) = some t₁)
    (hn₁ : Machine.position Event.leaves s.reads.length es₁ = some n₁)
    (hd₁ : t₁.signal distance (.deliver n₁) = some (t₁', .completion k₁ yaks₁))
    (hes : (machine κ τ distance).run t₁' es = some s₂)
    (h₂ : (machine κ τ distance).run s₂
      (.issue (.getDocuments (.fetchYaks loc radius k₂)) :: es₂) = some t₂)
    (hn₂ : Machine.position Event.leaves s₂.reads.length es₂ = some n₂)
    (hd₂ : t₂.signal distance (.deliver n₂) = some (t₂', .completion k₂ yaks₂)) :
    ∀ y ∈ yaks₁, ∃ z ∈ yaks₂, z.identity = y.identity := by
  have ht₁' : Integrity t₁' := (h.run h₁).signal (effect_of_signal hd₁)
  have hs₂ : Integrity s₂ := ht₁'.run hes
  obtain ⟨es₁', es₁'', u₁, hu₁, hrest₁, hdocs₁, rfl⟩ := exists_eq_yaksWithin h h₁ hn₁ hd₁
  obtain ⟨es₂', es₂'', u₂, hu₂, -, -, rfl⟩ := exists_eq_yaksWithin hs₂ h₂ hn₂ hd₂
  have hpreserved : Preserved u₁.docs u₂.docs := by
    have hfirst := (h.run hu₁).preserved_run hrest₁
    rw [← hdocs₁] at hfirst
    exact (hfirst.trans (ht₁'.preserved_run hes)).trans (hs₂.preserved_run hu₂)
  exact fun y hy => exists_mem_yaksWithin hpreserved hy

/-- A fetch, another upload, and a second fetch. -/
theorem monotone_reads_around_upload :
    let upload (guid : Guid) (id : ℕ) : List (Event Unit Unit ℕ) := [.issue (.putData guid [1]),
      .signal (.store 0), .signal (.complete 0 ⟨0, 0⟩ 0), .signal (.create 0 id)]
    let fetch : Request Unit Unit ℕ := .getDocuments (.fetchYaks ⟨0, 0⟩ 0 ())
    let M := machine Unit Unit Platform.discrete.distance
    ∃ t₁ t₁' s₂ t₂ t₂' yaks₁ yaks₂,
      M.run empty (.issue fetch ::
        (upload (.ofString "a" (by decide)) 7 ++ [.signal (.snapshot 0)])) = some t₁ ∧
      t₁.signal Platform.discrete.distance (.deliver 0) = some (t₁', .completion () yaks₁) ∧
      M.run t₁' (upload (.ofString "b" (by decide)) 3) = some s₂ ∧
      M.run s₂ [.issue fetch, .signal (.snapshot 0)] = some t₂ ∧
      t₂.signal Platform.discrete.distance (.deliver 0) = some (t₂', .completion () yaks₂) ∧
      yaks₁.length = 1 ∧ yaks₂.length = 2 ∧ ∀ y ∈ yaks₁, ∃ z ∈ yaks₂, z.identity = y.identity := by
  intro upload fetch M
  let count : Outcome Unit → Option ℕ := fun o => match o with
    | .completion _ yaks => some yaks.length
    | _ => none
  have h : ((M.run empty (.issue fetch ::
      (upload (.ofString "a" (by decide)) 7 ++ [.signal (.snapshot 0)]))).bind fun t₁ =>
      (t₁.signal Platform.discrete.distance (.deliver 0)).bind fun r₁ =>
      (M.run r₁.1 (upload (.ofString "b" (by decide)) 3)).bind fun s₂ =>
      (M.run s₂ [.issue fetch, .signal (.snapshot 0)]).bind fun t₂ =>
      (t₂.signal Platform.discrete.distance (.deliver 0)).map fun r₂ =>
        (s₂.reads.length, count r₁.2, count r₂.2)) = some (0, some 1, some 2) := by decide +kernel
  simp only [Option.bind_eq_some_iff, Option.map_eq_some_iff, Prod.mk.injEq] at h
  obtain ⟨t₁, ht₁, ⟨t₁', o₁⟩, hd₁, s₂, hs₂, t₂, ht₂, ⟨t₂', o₂⟩, hd₂, hlength, h₁, h₂⟩ := h
  have hn₂ : Machine.position Event.leaves s₂.reads.length
      ([.signal (.snapshot 0)] : List (Event Unit Unit ℕ)) = some 0 := by
    rw [hlength]
    rfl
  match o₁, o₂, h₁, h₂ with
  | .completion () yaks₁, .completion () yaks₂, h₁, h₂ =>
    exact ⟨t₁, t₁', s₂, t₂, t₂', yaks₁, yaks₂, ht₁, hd₁, hs₂, ht₂, hd₂, Option.some.inj h₁,
      Option.some.inj h₂, monotone_reads integrity_empty ht₁ rfl hd₁ hs₂ ht₂ hn₂ hd₂⟩

/-! ### Fetches after a document was created -/

/-- A fetch returns a stored yak once if it is within the radius, and otherwise not. -/
theorem filter_yaksWithin {docs : List Document} (hw : WellFormed docs) {z : Yak}
    (hz : stored docs z.imageUrl = some z) (loc : GeoPoint) (radius : D) :
    (yaksWithin distance loc radius docs).filter (fun y => y.imageUrl = z.imageUrl) =
      if distance z.location loc ≤ radius then [z] else [] := by
  have hurls : ((docs.filterMap Document.yak?).map Yak.imageUrl).Nodup := by
    have hmap : (docs.filterMap Document.yak?).map Yak.imageUrl =
        (docs.map Document.url?).filterMap id := by
      rw [List.map_filterMap, List.filterMap_map]
      rfl
    rw [hmap]
    exact hw.nodup_urls.filterMap fun a a' b hb hb' => hb.trans hb'.symm
  have hone := filter_eq_of_nodup_map hurls (List.mem_of_find?_eq_some hz)
  rw [yaksWithin, ← List.filter_filterMap, List.filter_comm, hone, List.filter_singleton,
    Bool.cond_decide]

/-- **Created yaks are fetched.** After a document was created, every fetch that is issued returns
its yak exactly once if it is within the radius, and otherwise not, whoever uploaded it and whatever
is voted, replied, uploaded and fetched in between: the same user, photo and place, and the date as
Firestore stores it. -/
theorem created_fetched (h : Integrity s) {y : Yak} {n m id : ℕ} {s' s₂ t' : Remote κ τ D}
    {o : Outcome κ} {es es₂ : List (Event κ τ D)} {loc : GeoPoint} {radius : D} {k : κ}
    {yaks : List Yak} (hy : s.adds[n]? = some y)
    (hcreate : s.signal distance (.create n id) = some (s', o))
    (hes : (machine κ τ distance).run s' es = some s₂)
    (ht : (machine κ τ distance).run s₂
      (.issue (.getDocuments (.fetchYaks loc radius k)) :: es₂) = some t)
    (hm : Machine.position Event.leaves s₂.reads.length es₂ = some m)
    (hd : t.signal distance (.deliver m) = some (t', .completion k yaks)) :
    (yaks.filter fun z => z.imageUrl = y.imageUrl).map Yak.identity =
      if distance y.location loc ≤ radius then [y.rounded.identity] else [] := by
  have hs' : Integrity s' := h.signal (effect_of_signal hcreate)
  have hs₂ : Integrity s₂ := hs'.run hes
  obtain ⟨es₂', es₂'', u, hu, -, -, rfl⟩ := exists_eq_yaksWithin hs₂ ht hm hd
  have hw := (hs₂.run hu).wellFormed
  have hpreserved : Preserved s'.docs u.docs := (hs'.preserved_run hes).trans (hs₂.preserved_run hu)
  obtain ⟨d, hmem, hyak⟩ : ∃ d ∈ s'.docs, d.yak? = some y.rounded := by
    simp only [signal, hy, Option.bind_eq_bind, Option.bind_some] at hcreate
    split_ifs at hcreate
    obtain ⟨rfl, -⟩ := Prod.mk.inj (Option.some.inj hcreate)
    exact ⟨_, mem_addDocument.mpr (.inl rfl), init?_stored_dictionary y⟩
  obtain ⟨d', hmem', -, hidentity⟩ := hpreserved d hmem
  obtain ⟨z, hz, hzy⟩ : ∃ z, d'.yak? = some z ∧ z.identity = y.rounded.identity := by
    rw [Document.identity?, Document.identity?, hyak, Option.map_some] at hidentity
    exact Option.map_eq_some_iff.mp hidentity
  obtain ⟨-, hurl, hlocation, -⟩ : z.userId = y.userId ∧ z.imageUrl = y.imageUrl ∧
      z.location = y.location ∧ _ := by
    simpa only [Yak.identity, Yak.rounded, Prod.mk.injEq] using hzy
  rw [← hurl, ← hlocation, filter_yaksWithin hw (hw.stored_of_mem hmem' hz), apply_ite (List.map _),
    List.map_singleton, List.map_nil, hzy]

/-- A yak is created, voted for and fetched. -/
theorem created_fetched_after_vote :
    let M := machine Unit Unit Platform.discrete.distance
    let y : Yak := newYak (photoName (.ofString "a" (by decide))) ⟨1, 2⟩ (1 / 2)
    ∃ s s' s₂ t t' o yaks, M.run empty [.issue (.putData (.ofString "a" (by decide)) [1]),
        .signal (.store 0), .signal (.complete 0 ⟨1, 2⟩ (1 / 2))] = some s ∧
      s.signal Platform.discrete.distance (.create 0 7) = some (s', o) ∧
      M.run s' [.issue (updateYakVote { y with likes := 1 } ()), .signal (.snapshot 0),
        .signal (.deliver 0), .signal (.apply 0)] = some s₂ ∧
      M.run s₂ [.issue (.getDocuments (.fetchYaks ⟨1, 2⟩ 0 ())), .signal (.snapshot 0)] = some t ∧
      t.signal Platform.discrete.distance (.deliver 0) = some (t', .completion () yaks) ∧
      yaks.map Yak.likes = [1] ∧
      (yaks.filter fun z => z.imageUrl = y.imageUrl).map Yak.identity = [y.rounded.identity] := by
  intro M y
  let first : List (Event Unit Unit ℕ) := [.issue (.putData (.ofString "a" (by decide)) [1]),
    .signal (.store 0), .signal (.complete 0 ⟨1, 2⟩ (1 / 2))]
  let vote : List (Event Unit Unit ℕ) := [.issue (updateYakVote { y with likes := 1 } ()),
    .signal (.snapshot 0), .signal (.deliver 0), .signal (.apply 0)]
  let likes : Outcome Unit → Option (List ℤ) := fun o => match o with
    | .completion _ yaks => some (yaks.map Yak.likes)
    | _ => none
  have h : ((M.run empty first).bind fun s =>
      (s.signal Platform.discrete.distance (.create 0 7)).bind fun r =>
      (M.run r.1 vote).bind fun s₂ =>
      (M.run s₂ [.issue (.getDocuments (.fetchYaks ⟨1, 2⟩ 0 ())), .signal (.snapshot 0)]).bind
        fun t => (t.signal Platform.discrete.distance (.deliver 0)).map fun r' =>
          (s.adds[0]?, s₂.reads.length, likes r'.2)) = some (some y, 0, some [1]) := by
    decide +kernel
  simp only [Option.bind_eq_some_iff, Option.map_eq_some_iff, Prod.mk.injEq] at h
  obtain ⟨s, hs, ⟨s', o⟩, hcreate, s₂, hs₂, t, ht, ⟨t', o'⟩, hd, hadd, hlength, hlikes⟩ := h
  have hm : Machine.position Event.leaves s₂.reads.length
      ([.signal (.snapshot 0)] : List (Event Unit Unit ℕ)) = some 0 := by
    rw [hlength]
    rfl
  match o', hlikes with
  | .completion () yaks, hlikes =>
    refine ⟨s, s', s₂, t, t', o, yaks, hs, hcreate, hs₂, ht, hd, Option.some.inj hlikes, ?_⟩
    exact created_fetched (integrity_empty.run hs) hadd hcreate hs₂ ht hm hd

end Remote

end SnapYak
