import SnapYak.Devices.Ledger

/-!
# Comments and the replies of the devices

A reply appends a comment to the copy of a comments screen and overwrites the stored comments with
those of the copy. The comments of any copy, wherever it has got to, are replies that have been
posted, each at most once and in the order in which they were posted: appending the newest reply is
all that ever happens to a copy. The stored comments are therefore some of the replies, in order.
They are all of them when every reply lands on as many comments as its copy had, and two replies to
equally old copies are enough to lose one.

## Main definitions

* `World.posted` : the reply that a step posts.
* `World.Appears` : the yaks that a world has anywhere.
* `World.Origin` : where the comments of a yak come from.

## Main results

* `World.Sound.origin_of_appears` : the origins of the yaks after a step.
* `World.comments_sublist_posted` : the comments after a run.
* `World.reply_lost` : two devices reply, and one reply is stored.
-/

namespace SnapYak

namespace World

variable {ι D : Type}

/-- The reply that a step posts on a yak, with its device. -/
def posted (url : String) (s : World ι D) : Event ι D → List (ι × String)
  | .act i a => ((s.devices i).posted url a).map fun comment => (i, comment)
  | .signal _ => []

/-- A yak on a screen, in the collection, in a snapshot, or handed to an outstanding update. -/
inductive Appears (s : World ι D) (y : Yak) : Prop
  | copy {i : ι} (hy : y ∈ (s.devices i).copies)
  | document {doc : Document} (hdoc : doc ∈ s.remote.docs) (hy : doc.yak? = some y)
  | snapshot {r : Read (ι × Completion) (ι × Yak) D} {docs : List Document} {doc : Document}
      (hr : r ∈ s.remote.reads) (hdocs : r.rawSnapshot = some docs) (hdoc : doc ∈ docs)
      (hy : doc.yak? = some y)
  | target {c : Field × Yak × ι × Yak} (hc : c ∈ s.remote.outstanding) (hy : c.2.1 = y)

/-- Where the comments of a yak after a step come from. -/
inductive Origin (s : World ι D) (e : Event ι D) (y : Yak) : Prop
  | kept {z : Yak} (hz : Appears s z) (hurl : y.imageUrl = z.imageUrl)
      (hcomments : y.comments = z.comments)
  | created (hcomments : y.comments = [])
  | replied {i : ι} {a : Action D} {yak : Yak} {comment : String} (he : e = .act i a)
      (hreplied : (s.devices i).replied a = some (yak, comment)) (hyak : Appears s yak)
      (hy : y = yak.addComment comment)

variable {s t : World ι D} {url : String} {y : Yak}

theorem Appears.origin {e : Event ι D} (h : Appears s y) : Origin s e y := .kept h rfl rfl

theorem length_posted (url : String) (s : World ι D) (e : Event ι D) :
    ((posted url s e).length : ℤ) = added .comments url s e := by
  cases e with
  | act i a => exact congrArg Nat.cast (List.length_map ..)
  | signal g => rfl

/-- The copies on the screens after an action, and those handed to its updates. -/
theorem origin_of_effect {i : ι} {a : Action D} {d : Device D}
    {calls : Device.Calls D} (he : (s.devices i).Effect a d calls) :
    (∀ y ∈ d.copies, Origin s (.act i a) y) ∧
      ∀ c ∈ calls.filterMap Request.call?, Origin s (.act i a) c.2.1 := by
  cases he with
  | quiet _ _ hcalls _ hcopies =>
    rw [List.filterMap_eq_nil_iff.mpr hcalls]
    exact ⟨fun y hy => (Appears.copy (hcopies y hy)).origin, by simp⟩
  | @vote dir yak _ _ hyak _ hcopies =>
    obtain ⟨hurl, hcomments⟩ := imageUrl_comments_vote dir (s.devices i).defaults yak
    have horigin : Origin s (.act i a) (vote dir (s.devices i).defaults yak).yak :=
      .kept (.copy hyak) hurl hcomments
    refine ⟨fun y hy => ?_, fun c hc => ?_⟩
    · rcases hcopies y hy with hy | rfl
      · exact (Appears.copy hy).origin
      · exact horigin
    · rw [Device.filterMap_call?_vote] at hc
      obtain rfl := List.mem_singleton.mp hc
      exact horigin
  | @reply yak comment _ hreplied hyak _ hcopies =>
    have horigin : Origin s (.act i a) (yak.addComment comment) :=
      .replied rfl hreplied (.copy hyak) rfl
    refine ⟨fun y hy => ?_, fun c hc => ?_⟩
    · rcases hcopies y hy with hy | rfl
      · exact (Appears.copy hy).origin
      · exact horigin
    · obtain rfl := List.mem_singleton.mp hc
      exact horigin

namespace Sound

variable [LinearOrder D] {P : Platform D} {g : Signal} {o : Outcome (ι × Completion)}
  {remote : Remote (ι × Completion) (ι × Yak) D}

/-- The documents after a signal. -/
theorem origin_of_document (h : Sound s) (he : Remote.Effect P.distance s.remote g remote o)
    {doc : Document} (hdoc : doc ∈ remote.docs) (hy : doc.yak? = some y) :
    Origin s (.signal g) y := by
  rcases he.docs_cases with hd | ⟨n, w, -, hw, hd⟩ | ⟨n, id, z, -, hadd, -, hd⟩
  · exact (Appears.document (hd ▸ hdoc) hy).origin
  · obtain ⟨d, hmem, rfl⟩ := (mem_updateData w.field w.targetYak).mp (hd ▸ hdoc)
    obtain ⟨z, hz⟩ := h.integrity.wellFormed.exists_yak hmem
    rw [yak?_update _ _ (h.integrity.wellFormed.decodes d hmem), hz] at hy
    split_ifs at hy with hid
    · obtain rfl : w.field.write w.targetYak z = y := by simpa using hy
      cases hf : w.field with
      | likes => exact .kept (.document hmem hz) rfl rfl
      | comments =>
        -- The comments are those of the target, which has the `image_url` of the document.
        obtain ⟨d', hd', hid', hurl⟩ := h.integrity.exists_target hw
        obtain rfl := h.integrity.wellFormed.eq_of_documentID_eq hmem hd' (hid.trans hid'.symm)
        rw [Document.url?, hz] at hurl
        refine .kept (.target (c := w.call) ?_ rfl) (Option.some.inj hurl) rfl
        rw [Remote.outstanding_of_write hw]
        exact List.mem_cons_self
    · obtain rfl := Option.some.inj hy
      exact (Appears.document hmem hz).origin
  · rcases mem_addDocument.mp (hd ▸ hdoc) with rfl | hdoc
    · obtain rfl : z.rounded = y := Option.some.inj ((init?_stored_dictionary z).symm.trans hy)
      exact .created (h.adds z (List.mem_of_getElem? hadd)).2
    · exact (Appears.document hdoc hy).origin

/-- The yaks that a fetch hands over are those of a snapshot. -/
theorem origin_of_fetched {k : ι × Completion} {yaks : List Yak}
    (he : Remote.Effect P.distance s.remote g remote (.completion k yaks)) (hy : y ∈ yaks) :
    Origin s (.signal g) y := by
  cases he with
  | fetched hread hyaks =>
    obtain ⟨doc, hdoc, hdy⟩ := mem_of_mem_fetchYaks hyaks hy
    exact (Appears.snapshot (List.mem_of_getElem? hread) rfl hdoc hdy).origin

/-- The yaks after a signal, if those on the screens have an origin. -/
theorem origin_of_signal (h : Sound s) (he : Remote.Effect P.distance s.remote g remote o)
    (hy : Appears t y) (ht : t.remote = remote)
    (hcopies : ∀ i, ∀ y ∈ (t.devices i).copies, Origin s (.signal g) y) :
    Origin s (.signal g) y := by
  subst ht
  cases hy with
  | copy hy => exact hcopies _ y hy
  | document hdoc hy => exact h.origin_of_document he hdoc hy
  | snapshot hr hdocs hdoc hy =>
    rcases he.reads_cases hr with hr | ⟨r₀, -, rfl⟩
    · exact (Appears.snapshot hr hdocs hdoc hy).origin
    · obtain rfl := Option.some.inj hdocs
      exact (Appears.document hdoc hy).origin
  | target hc hy =>
    refine (Appears.target ?_ hy).origin
    rw [Remote.outstanding_signal he]
    exact Multiset.mem_add.mpr (Or.inr hc)

variable [DecidableEq ι] [Zero D] [OfNat D 10000000]

/-- Every yak after a step comes from somewhere. -/
theorem origin_of_appears (h : Sound s) {e : Event ι D} (ht : (machine ι P).step s e = some t)
    (hy : Appears t y) : Origin s e y := by
  cases effect_of_step ht with
  | @act i a d calls remote hact hissue =>
    have hi := Remote.issued_of_issueAll hissue
    obtain ⟨hcopies, hcalls⟩ := origin_of_effect hact
    cases hy with
    | @copy j hy =>
      replace hy : y ∈ (Function.update s.devices i d j).copies := hy
      by_cases hj : j = i
      · rw [hj, Function.update_self] at hy
        exact hcopies y hy
      · rw [Function.update_of_ne hj] at hy
        exact (Appears.copy hy).origin
    | document hdoc hy => exact (Appears.document (hi.docs ▸ hdoc) hy).origin
    | snapshot hr hdocs hdoc hy =>
      obtain ⟨rs, hrs, -, hsnap⟩ := hi.reads
      rcases List.mem_append.mp (hrs ▸ hr) with hr | hr
      · exact (Appears.snapshot hr hdocs hdoc hy).origin
      · rw [hsnap _ hr] at hdocs
        exact absurd hdocs (by simp)
    | target hc hy =>
      rcases Multiset.mem_add.mp (hi.outstanding ▸ hc) with hc | hc
      · exact (Appears.target hc hy).origin
      · rw [Multiset.mem_coe, Request.filterMap_call?_tag] at hc
        obtain ⟨c', hc', rfl⟩ := List.mem_map.mp hc
        exact hy ▸ hcalls c' hc'
  | signal he => exact h.origin_of_signal he hy rfl fun i y hy => (Appears.copy (s := s) hy).origin
  | @completed g remote i k yaks he =>
    refine h.origin_of_signal he hy rfl fun j z hz => ?_
    replace hz : z ∈ (Function.update s.devices i ((s.devices i).complete P k yaks) j).copies := hz
    by_cases hj : j = i
    · rw [hj, Function.update_self] at hz
      rcases Device.mem_copies_complete hz with hz | hz
      · exact (Appears.copy hz).origin
      · exact origin_of_fetched he hz
    · rw [Function.update_of_ne hj] at hz
      exact (Appears.copy hz).origin

/-- The comments of every copy are posted replies, in order. -/
theorem comments_sublist_step (h : Sound s) {l : List (ι × String)}
    (hl : ∀ y, Appears s y → y.imageUrl = url → y.comments.Sublist (l.map Prod.snd)) {e : Event ι D}
    (ht : (machine ι P).step s e = some t) (hy : Appears t y) (hurl : y.imageUrl = url) :
    y.comments.Sublist ((l ++ posted url s e).map Prod.snd) := by
  rw [List.map_append]
  cases h.origin_of_appears ht hy with
  | kept hz hzurl hcomments =>
    rw [hcomments]
    exact (hl _ hz (hzurl ▸ hurl)).trans (List.sublist_append_left ..)
  | created hcomments =>
    rw [hcomments]
    exact List.nil_sublist _
  | @replied i a yak comment he hreplied hyak hy =>
    subst hy he
    have hposted : posted url s (.act i a) = [(i, comment)] := by
      simp only [posted, Device.posted, hreplied]
      rw [if_pos (show yak.imageUrl = url from hurl), List.map_singleton]
    rw [hposted]
    exact (hl yak hyak hurl).append (List.Sublist.refl _)

end Sound

theorem Initial.comments_eq_nil (h : Initial s) (hy : Appears s y) : y.comments = [] := by
  have hout : s.remote.outstanding = 0 := by
    simp [Remote.outstanding, h.quiescent.1, h.quiescent.2.1]
  cases hy with
  | @copy i hy =>
    rw [h.copies i] at hy
    exact absurd hy List.not_mem_nil
  | document hdoc hy => exact (h.fresh _ y (h.wellFormed.stored_of_mem hdoc hy)).2
  | snapshot hr =>
    rw [h.quiescent.1] at hr
    exact absurd hr List.not_mem_nil
  | target hc =>
    rw [hout] at hc
    exact absurd hc (Multiset.notMem_zero _)

section Run

variable [DecidableEq ι] [LinearOrder D] [Zero D] [OfNat D 10000000] {P : Platform D}

/-- **Comments and replies.** In every run in which no call fails: the stored comments of a yak are
replies that have been posted on it, each at most once, and in the order in which they were posted.
When no call is outstanding, their number is that of the replies, up to the drift of the landings;
and they are all of the replies if every one landed on as many comments as its copy had. -/
theorem comments_sublist_posted (h : Initial s) {es : List (Event ι D)}
    (hsucc : (machine ι P).Along (fun _ e => e.Succeeds) s es)
    (hrun : (machine ι P).run s es = some t) (hy : stored t.remote.docs url = some y) :
    let replies := (machine ι P).log (posted url) s es
    y.comments.Sublist (replies.map Prod.snd) ∧
      (t.remote.Quiescent →
        y.comments.length = replies.length + (machine ι P).total (drift .comments url) s es ∧
        ((machine ι P).Along (Timely .comments url) s es →
          y.comments = replies.map Prod.snd)) := by
  intro replies
  have hsub : y.comments.Sublist (replies.map Prod.snd) := by
    obtain ⟨d, hd, hdy⟩ := exists_mem_of_stored hy
    refine (Machine.history_induction (A := fun _ _ => True) (f := fun l s e => l ++ posted url s e)
      (I := fun s l => Sound s ∧ ∀ y, Appears s y → y.imageUrl = url →
        y.comments.Sublist (l.map Prod.snd)) ?_ ⟨h.sound, fun y hy _ => ?_⟩
      (.trivial s es) hrun).2 y (.document hd hdy) (imageUrl_of_stored hy)
    · rintro u l e v ⟨hu, hl⟩ - hv
      exact ⟨hu.step hv, fun y hy hurl => hu.comments_sublist_step hl hv hy hurl⟩
    · rw [h.comments_eq_nil hy]
      exact List.nil_sublist _
  refine ⟨hsub, fun hq => ?_⟩
  have hcount : (y.comments.length : ℤ) = _ := h.count_eq (f := .comments) hsucc hrun hq hy
  rw [← funext₂ (length_posted url), Machine.total_length hrun] at hcount
  refine ⟨hcount, fun htimely => hsub.eq_of_length ?_⟩
  rw [Machine.total_eq_zero (fun hA => drift_eq_zero hA) htimely hrun, add_zero] at hcount
  rw [List.length_map]
  exact_mod_cast hcount

end Run

/-- Two devices reply to a yak, and the second one has fetched it after the first reply landed. -/
theorem comments_sublist_posted_one_after_the_other :
    let yak := newYak "a" ⟨0, 0⟩ 0
    let reply (i : Fin 2) (comment : String) : List (Event (Fin 2) ℕ) := [
      .act i (.loadList 0), .signal (.snapshot 0), .signal (.deliver 0),
      .act i (.selectRow 0), .act i (.present 0), .act i (.openComments 0),
      .act i (.reply 0 comment), .signal (.snapshot 0), .signal (.deliver 0), .signal (.apply 0)]
    let es := reply 0 "x" ++ reply 1 "y"
    ∃ t y, (machine (Fin 2) Platform.discrete).run (single yak ⟨0, 0⟩) es = some t ∧
      stored t.remote.docs "a" = some y ∧ y.comments = ["x", "y"] ∧
      y.comments = ((machine (Fin 2) Platform.discrete).log (posted "a") (single yak ⟨0, 0⟩) es).map
        Prod.snd := by
  intro yak reply es
  have h : ((machine (Fin 2) Platform.discrete).run (single yak ⟨0, 0⟩) es).map
      (fun t => (decide t.remote.Quiescent, stored t.remote.docs "a")) =
      some (true, some { yak with comments := ["x", "y"] }) := by decide +kernel
  obtain ⟨t, ht, heq⟩ := Option.map_eq_some_iff.mp h
  simp only [Prod.mk.injEq, decide_eq_true_eq] at heq
  exact ⟨t, _, ht, heq.2, rfl, ((comments_sublist_posted (initial_single rfl rfl _)
    (by decide +kernel) ht heq.2).2 heq.1).2 (by decide +kernel)⟩

/-- **A lost reply.** Two devices fetch a yak without comments and reply to it. Each write has the
reply of its own device only, and the second one takes the first reply back. -/
theorem reply_lost :
    let yak := newYak "a" ⟨0, 0⟩ 0
    let openComments (i : Fin 2) : List (Event (Fin 2) ℕ) := [
      .act i (.loadList 0), .signal (.snapshot 0), .signal (.deliver 0),
      .act i (.selectRow 0), .act i (.present 0), .act i (.openComments 0)]
    let reply (i : Fin 2) (comment : String) : List (Event (Fin 2) ℕ) := [
      .act i (.reply 0 comment), .signal (.snapshot 0), .signal (.deliver 0), .signal (.apply 0)]
    let es := openComments 0 ++ openComments 1 ++ reply 0 "x" ++ reply 1 "y"
    Initial (single yak ⟨0, 0⟩ : World (Fin 2) ℕ) ∧
    (machine (Fin 2) Platform.discrete).Along (fun _ e => e.Succeeds) (single yak ⟨0, 0⟩) es ∧
    (machine (Fin 2) Platform.discrete).log (posted "a") (single yak ⟨0, 0⟩) es =
      [(0, "x"), (1, "y")] ∧
    ∃ t y, (machine (Fin 2) Platform.discrete).run (single yak ⟨0, 0⟩) es = some t ∧
      t.remote.Quiescent ∧ stored t.remote.docs "a" = some y ∧ y.comments = ["y"] := by
  intro yak openComments reply es
  have h : ((machine (Fin 2) Platform.discrete).run (single yak ⟨0, 0⟩) es).map
      (fun t => (decide t.remote.Quiescent, stored t.remote.docs "a")) =
      some (true, some { yak with comments := ["y"] }) := by decide +kernel
  obtain ⟨t, ht, heq⟩ := Option.map_eq_some_iff.mp h
  simp only [Prod.mk.injEq, decide_eq_true_eq] at heq
  exact ⟨initial_single rfl rfl _, by decide +kernel, by decide +kernel, t, _, ht, heq.1, heq.2,
    rfl⟩

end World

end SnapYak
