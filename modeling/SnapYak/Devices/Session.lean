import SnapYak.Devices.Ledger
import SnapYak.Devices.Settled

/-!
# Opening the comments again

A comments screen gets a copy of the yak of the message screen below it, and its replies change this
copy only. The message screen keeps the comments that it was opened with, and hands them over once
more when the comments are opened again: the replies are not shown, and the next one overwrites
them.

## Main definitions

* `Device.ScreensEffect` : what an action does to the message screens and the comments screens.
* `World.InSession` : the runs on one message screen.
* `World.Shows`, `World.OpensFirst` : what a comments screen shows when it is opened.

## Main results

* `World.session_iff` : the runs in which all replies are shown and stored.
* `World.reply_overwritten` : a run in which one is not.
-/

namespace SnapYak

/-! ### The screens over the list and the map -/

/-- The message screen on which an action opens the comments. -/
def Action.opens? {D : Type} : Action D → Option ℕ
  | .openComments n => some n
  | _ => none

/-- The message screen that an action closes. -/
def Action.closes? {D : Type} : Action D → Option ℕ
  | .closeMessage n => some n
  | _ => none

namespace Device

variable {D : Type} {d d' : Device D} {a : Action D}

/-- The ways an action can act on the message screens and the comments screens. -/
inductive ScreensEffect (d : Device D) : Action D → List Yak → List Yak → Prop
  | present {n : ℕ} {yak : Yak} :
      ScreensEffect d (.present n) (d.messageScreens ++ [yak]) d.commentsScreens
  | voteMessage {dir : Direction} {n : ℕ} {yak : Yak} (hyak : d.messageScreens[n]? = some yak) :
      ScreensEffect d (.voteMessage dir n)
        (d.messageScreens.set n (vote dir d.defaults yak).yak) d.commentsScreens
  | closeMessage {n : ℕ} :
      ScreensEffect d (.closeMessage n) (d.messageScreens.eraseIdx n) d.commentsScreens
  | openComments {n : ℕ} {yak : Yak} (hyak : d.messageScreens[n]? = some yak) :
      ScreensEffect d (.openComments n) d.messageScreens
        (d.commentsScreens ++ [MessageViewController.prepare yak])
  | reply {n : ℕ} {comment : String} {yak : Yak} (hyak : d.commentsScreens[n]? = some yak) :
      ScreensEffect d (.reply n comment) d.messageScreens
        (d.commentsScreens.set n (yak.addComment comment))
  | closeComments {n : ℕ} :
      ScreensEffect d (.closeComments n) d.messageScreens (d.commentsScreens.eraseIdx n)
  | other {a : Action D} (hreplied : d.replied a = none) :
      ScreensEffect d a d.messageScreens d.commentsScreens

/-- Every action acts in one of these ways. -/
theorem screensEffect_of_act [LinearOrder D] [Zero D] [OfNat D 10000000] {P : Platform D}
    {calls : Calls D} (h : d.act P a = some (d', calls)) :
    d.ScreensEffect a d'.messageScreens d'.commentsScreens := by
  cases a with
  | changeLocation location | loadList n | showList | pullToRefresh | updateList location
  | selectSegment n | loadMap | upload guid jpegData fileExists writeFails | loadSettings
  | saveRadius rad =>
    obtain ⟨rfl, -⟩ := Prod.mk.inj (Option.some.inj h)
    exact .other rfl
  | selectRow row | updateMap location | showMap =>
    simp only [act, Option.bind_eq_bind, Option.bind_eq_some_iff] at h
    obtain ⟨_, -, h⟩ := h
    obtain ⟨rfl, -⟩ := Prod.mk.inj (Option.some.inj h)
    exact .other rfl
  | voteRow dir n | tapCallout n =>
    simp only [act, Option.bind_eq_bind, Option.bind_eq_some_iff] at h
    obtain ⟨_, -, _, -, h⟩ := h
    obtain ⟨rfl, -⟩ := Prod.mk.inj (Option.some.inj h)
    exact .other rfl
  | present n =>
    simp only [act, Option.bind_eq_bind, Option.bind_eq_some_iff] at h
    obtain ⟨_, -, h⟩ := h
    obtain ⟨rfl, -⟩ := Prod.mk.inj (Option.some.inj h)
    exact .present
  | voteMessage dir n =>
    simp only [act, Option.bind_eq_bind, Option.bind_eq_some_iff] at h
    obtain ⟨_, hyak, r, hvote, h⟩ := h
    obtain ⟨-, rfl⟩ := MessageViewController.vote_eq_some.mp hvote
    obtain ⟨rfl, -⟩ := Prod.mk.inj (Option.some.inj h)
    exact .voteMessage hyak
  | closeMessage n =>
    simp only [act, Option.bind_eq_bind, Option.bind_eq_some_iff] at h
    obtain ⟨_, -, h⟩ := h
    obtain ⟨rfl, -⟩ := Prod.mk.inj (Option.some.inj h)
    exact .closeMessage
  | openComments n =>
    simp only [act, Option.bind_eq_bind, Option.bind_eq_some_iff] at h
    obtain ⟨_, hyak, h⟩ := h
    obtain ⟨rfl, -⟩ := Prod.mk.inj (Option.some.inj h)
    exact .openComments hyak
  | reply n comment =>
    simp only [act, Option.bind_eq_bind, Option.bind_eq_some_iff] at h
    obtain ⟨_, hyak, h⟩ := h
    obtain ⟨rfl, -⟩ := Prod.mk.inj (Option.some.inj h)
    exact .reply hyak
  | closeComments n =>
    simp only [act, Option.bind_eq_bind, Option.bind_eq_some_iff] at h
    obtain ⟨_, -, h⟩ := h
    obtain ⟨rfl, -⟩ := Prod.mk.inj (Option.some.inj h)
    exact .closeComments

/-- The first message screen keeps its comments until it is closed. -/
theorem ScreensEffect.first_message {messageScreens commentsScreens : List Yak}
    (h : d.ScreensEffect a messageScreens commentsScreens) (ha : a ≠ .closeMessage 0) {y : Yak}
    (hy : d.messageScreens[0]? = some y) :
    ∃ y', messageScreens[0]? = some y' ∧ y'.imageUrl = y.imageUrl ∧ y'.comments = y.comments := by
  have hlen : 0 < d.messageScreens.length := (List.getElem?_eq_some_iff.mp hy).1
  cases h with
  | present =>
    refine ⟨y, ?_, rfl, rfl⟩
    rw [List.getElem?_append_left hlen, hy]
  | @voteMessage dir n yak hyak =>
    by_cases hn : n = 0
    · subst hn
      obtain rfl : y = yak := Option.some.inj (hy.symm.trans hyak)
      exact ⟨_, List.getElem?_set_self hlen, imageUrl_comments_vote dir d.defaults y⟩
    · exact ⟨y, by rw [List.getElem?_set_ne hn, hy], rfl, rfl⟩
  | @closeMessage n =>
    have hn : 0 < n := Nat.pos_of_ne_zero fun hn => ha (by rw [hn])
    exact ⟨y, by rw [List.getElem?_eraseIdx_of_lt hn, hy], rfl, rfl⟩
  | _ => exact ⟨y, hy, rfl, rfl⟩

theorem posted_of_replied {url : String} (h : d.replied a = none) : d.posted url a = [] := by
  simp only [posted, h]

/-- A reply starts from the copy of a comments screen. -/
theorem mem_of_replied {yak : Yak} {comment : String} (h : d.replied a = some (yak, comment)) :
    yak ∈ d.commentsScreens := by
  simp only [replied] at h
  split at h
  · obtain ⟨_, hyak, heq⟩ := Option.map_eq_some_iff.mp h
    obtain ⟨rfl, -⟩ := Prod.mk.inj heq
    exact List.mem_of_getElem? hyak
  · exact absurd h (by simp)

end Device

/-! ### Runs on one message screen -/

namespace World

variable {D : Type}

/-- The steps on the first message screen while it is presented: comments are opened on it, when no
comments screen is open. No call fails or overtakes another. -/
def InSession (s : World Unit D) : Event Unit D → Prop
  | .act _ a => (∀ n ∈ a.opens?, n = 0 ∧ (s.devices ()).commentsScreens = []) ∧
    ∀ n ∈ a.closes?, n ≠ 0
  | .signal g => g.Succeeds ∧ g.InOrder

/-- The replies posted on a yak so far, as a history variable. -/
def addReplies (url : String) (replies : List String) (s : World Unit D) :
    Event Unit D → List String
  | .act _ a => replies ++ (s.devices ()).posted url a
  | .signal _ => replies

/-- A comments screen that is opened shows the comments that the message screen was opened with, and
the replies posted so far, in order. -/
def Shows (comments : List String) (p : World Unit D × List String) : Event Unit D → Prop
  | .act _ a => ∀ n ∈ a.opens?, ∀ yak ∈ (p.1.devices ()).messageScreens[n]?,
    (comments ++ p.2).Sublist (MessageViewController.prepare yak).comments
  | .signal _ => True

/-- The comments are opened before any reply is posted. -/
def OpensFirst (p : World Unit D × List String) : Event Unit D → Prop
  | .act _ a => ∀ n ∈ a.opens?, p.2 = []
  | .signal _ => True

instance (s : World Unit D) : (e : Event Unit D) → Decidable (InSession s e)
  | .act _ a => inferInstanceAs (Decidable ((∀ n ∈ a.opens?, _) ∧ ∀ n ∈ a.closes?, _))
  | .signal g => inferInstanceAs (Decidable (g.Succeeds ∧ g.InOrder))

instance (p : World Unit D × List String) : (e : Event Unit D) → Decidable (OpensFirst p e)
  | .act _ a => inferInstanceAs (Decidable (∀ n ∈ a.opens?, _))
  | .signal _ => isTrue trivial

/-- The first message screen has the yak, with the comments it was opened with. -/
def Presents (url : String) (comments : List String) (s : World Unit D) : Prop :=
  ∃ yak, (s.devices ()).messageScreens[0]? = some yak ∧ yak.imageUrl = url ∧
    yak.comments = comments

variable {url : String} {comments replies : List String} {s t : World Unit D}

theorem InSession.ne_closeMessage {i : Unit} {a : Action D} (h : InSession s (.act i a)) :
    a ≠ .closeMessage 0 := by
  rintro rfl
  exact h.2 0 rfl rfl

/-- What the message screen hands over has the replies exactly when there are none. -/
theorem Presents.shows_iff (h : Presents url comments s) {e : Event Unit D} (he : InSession s e) :
    Shows comments (s, replies) e ↔ OpensFirst (s, replies) e := by
  cases e with
  | signal g => exact Iff.rfl
  | act i a =>
    refine forall₂_congr fun n hn => ?_
    obtain ⟨rfl, -⟩ := he.1 n hn
    obtain ⟨yak, hyak, -, hcomments⟩ := h
    simp only [hyak, Option.mem_some, forall_eq', MessageViewController.prepare, hcomments]
    constructor
    · intro hsub
      have hlen := hsub.length_le
      rw [List.length_append] at hlen
      exact List.length_eq_zero_iff.mp (by omega)
    · rintro rfl
      rw [List.append_nil]

/-- The settled comments after an action. -/
theorem settled_comments_act {a : Action D} {d : Device D}
    {calls : Device.Calls D} (hact : (s.devices ()).Effect a d calls)
    (hi : s.remote.Issued (calls.map (Request.tag ())) t.remote) (url : String) :
    t.remote.settled Yak.comments [] .comments url = match (s.devices ()).replied a with
      | some (yak, comment) =>
        if yak.imageUrl = url then yak.comments ++ [comment]
        else s.remote.settled Yak.comments [] .comments url
      | none => s.remote.settled Yak.comments [] .comments url := by
  rw [hi.settled]
  cases hact with
  | quiet _ hreplied hcalls _ _ =>
    rw [List.filterMap_eq_nil_iff.mpr hcalls, hreplied, List.foldl_nil]
  | @vote dir yak _ hreplied _ _ _ =>
    rw [Device.filterMap_call?_vote, hreplied]
    rfl
  | @reply yak comment _ hreplied _ _ _ =>
    simp only [hreplied, updateComments, List.filterMap_cons, List.filterMap_nil, Request.call?,
      Callback.call?, List.foldl_cons, List.foldl_nil, Remote.overwrite, Yak.addComment, true_and]

/-- The replies of a session, if the comments were opened before the first one. -/
structure Posting (url : String) (comments : List String) (s : World Unit D)
    (replies : List String) : Prop where
  sound : Sound s
  presents : Presents url comments s
  /-- The comments screen has the replies. -/
  shown : (s.devices ()).commentsScreens = [] ∨ ∃ yak, (s.devices ()).commentsScreens = [yak] ∧
    yak.imageUrl = url ∧ yak.comments = comments ++ replies
  /-- The last reply has settled the stored comments. -/
  settled : replies ≠ [] →
    s.remote.settled Yak.comments [] .comments url = comments ++ replies

/-- The comments screen after an action. -/
theorem Posting.shown_act (h : Posting url comments s replies) {a : Action D}
    {messageScreens commentsScreens : List Yak}
    (he : (s.devices ()).ScreensEffect a messageScreens commentsScreens)
    (hsession : InSession s (.act () a)) (hopens : OpensFirst (s, replies) (.act () a)) :
    commentsScreens = [] ∨ ∃ yak, commentsScreens = [yak] ∧ yak.imageUrl = url ∧
      yak.comments = comments ++ (replies ++ (s.devices ()).posted url a) := by
  -- Without a reply, a comments screen that stays has what it had.
  have hstay (hreplied : (s.devices ()).replied a = none) : (s.devices ()).commentsScreens = [] ∨
      ∃ yak, (s.devices ()).commentsScreens = [yak] ∧ yak.imageUrl = url ∧
        yak.comments = comments ++ (replies ++ (s.devices ()).posted url a) := by
    rw [Device.posted_of_replied hreplied, List.append_nil]
    exact h.shown
  cases he with
  | @openComments n yak hyak =>
    obtain ⟨rfl, hclosed⟩ := hsession.1 n rfl
    obtain ⟨yak', hyak', hurl, hcomments⟩ := h.presents
    obtain rfl : yak' = yak := Option.some.inj (hyak'.symm.trans hyak)
    have hnil : replies = [] := hopens 0 rfl
    refine Or.inr ⟨yak', by rw [hclosed]; rfl, hurl, ?_⟩
    rw [hnil, hcomments, Device.posted_of_replied rfl, List.append_nil, List.append_nil]
  | @reply n comment yak hyak =>
    rcases h.shown with hnone | ⟨yak', hshown, hurl, hcomments⟩
    · simp [hnone] at hyak
    · rw [hshown] at hyak ⊢
      cases n with
      | succ n => simp at hyak
      | zero =>
        obtain rfl : yak' = yak := by simpa using hyak
        refine Or.inr ⟨yak'.addComment comment, rfl, hurl, ?_⟩
        simp only [Device.posted, Device.replied, hshown, List.getElem?_cons_zero, Option.map_some,
          hurl, ↓reduceIte, Yak.addComment, hcomments, List.append_assoc]
  | @closeComments n =>
    rcases hstay rfl with hnone | ⟨yak, hshown, hyak⟩
    · exact Or.inl (by rw [hnone]; rfl)
    · rw [hshown]
      cases n with
      | zero => exact Or.inl rfl
      | succ n => exact Or.inr ⟨yak, rfl, hyak⟩
  | present | voteMessage _ | closeMessage => exact hstay rfl
  | other hreplied => exact hstay hreplied

/-- The settled comments after an action of a session. -/
theorem Posting.settled_act (h : Posting url comments s replies) {a : Action D} {d : Device D}
    {calls : Device.Calls D} (he : (s.devices ()).Effect a d calls)
    (hi : s.remote.Issued (calls.map (Request.tag ())) t.remote)
    (hreplies : replies ++ (s.devices ()).posted url a ≠ []) :
    t.remote.settled Yak.comments [] .comments url =
      comments ++ (replies ++ (s.devices ()).posted url a) := by
  rw [settled_comments_act he hi]
  cases hreplied : (s.devices ()).replied a with
  | none =>
    rw [Device.posted_of_replied hreplied, List.append_nil] at hreplies ⊢
    exact h.settled hreplies
  | some p =>
    obtain ⟨yak, comment⟩ := p
    have hmem := Device.mem_of_replied hreplied
    rcases h.shown with hnone | ⟨yak', hshown, hurl, hcomments⟩
    · rw [hnone] at hmem
      exact absurd hmem List.not_mem_nil
    · obtain rfl : yak = yak' := List.mem_singleton.mp (hshown ▸ hmem)
      simp only [Device.posted, hreplied, hurl, ↓reduceIte, hcomments, List.append_assoc]

section Steps

variable [LinearOrder D] [Zero D] [OfNat D 10000000] {P : Platform D}

/-- A signal changes no screen over the list and the map. -/
theorem screens_signal {g : Signal} (ht : (machine Unit P).step s (.signal g) = some t) :
    (t.devices ()).messageScreens = (s.devices ()).messageScreens ∧
      (t.devices ()).commentsScreens = (s.devices ()).commentsScreens := by
  cases effect_of_step ht with
  | signal he => exact ⟨rfl, rfl⟩
  | @completed g remote i k yaks he =>
    cases k <;> simp [setDevice, Device.complete]

theorem Presents.step (h : Presents url comments s) {e : Event Unit D} (he : InSession s e)
    (ht : (machine Unit P).step s e = some t) : Presents url comments t := by
  obtain ⟨yak, hyak, hurl, hcomments⟩ := h
  cases e with
  | act i a =>
    obtain ⟨d, calls, remote, hact, -, rfl⟩ := step_act_eq_some.mp ht
    obtain ⟨yak', hyak', hurl', hcomments'⟩ :=
      (Device.screensEffect_of_act hact).first_message he.ne_closeMessage hyak
    exact ⟨yak', by simpa [setDevice] using hyak', hurl'.trans hurl, hcomments'.trans hcomments⟩
  | signal g =>
    rw [Presents, (screens_signal ht).1]
    exact ⟨yak, hyak, hurl, hcomments⟩

/-- **A session.** Every step keeps the replies on the comments screen and in the settled comments,
as long as the comments are not opened after a reply. -/
theorem Posting.step (h : Posting url comments s replies) {e : Event Unit D} (he : InSession s e)
    (hopens : OpensFirst (s, replies) e) (ht : (machine Unit P).step s e = some t) :
    Posting url comments t (addReplies url replies s e) := by
  cases e with
  | act i a =>
    obtain ⟨d, calls, remote, hact, hissue, rfl⟩ := step_act_eq_some.mp ht
    refine ⟨h.sound.step ht, h.presents.step he ht, ?_, fun hreplies => ?_⟩
    · simpa [setDevice, addReplies] using
        h.shown_act (Device.screensEffect_of_act hact) he hopens
    · exact h.settled_act (Device.effect_of_act hact) (Remote.issued_of_issueAll hissue) hreplies
  | signal g =>
    refine ⟨h.sound.step ht, h.presents.step he ht, ?_, fun hreplies => ?_⟩
    · rw [(screens_signal ht).2]
      exact h.shown
    · rw [addReplies, ← h.settled hreplies]
      cases effect_of_step ht with
      | signal hsignal => exact h.sound.settled_signal isValue_comments he hsignal url
      | completed hsignal => exact h.sound.settled_signal isValue_comments he hsignal url

/-- The replies after a session. -/
theorem Posting.run (h : Posting url comments s replies) {es : List (Event Unit D)}
    (hes : ((machine Unit P).withHistory (addReplies url)).Along
      (fun p e => InSession p.1 e ∧ OpensFirst p e) (s, replies) es)
    (hrun : (machine Unit P).run s es = some t) :
    Posting url comments t ((machine Unit P).history (addReplies url) replies s es) :=
  Machine.run_induction (M := (machine Unit P).withHistory (addReplies url))
    (I := fun p => Posting url comments p.1 p.2)
    (fun {p e q} h hA hq => by
      obtain ⟨hq, hreplies⟩ := Machine.step_withHistory_eq_some.mp hq
      exact hreplies ▸ h.step hA.1 hA.2 hq) h hes (Machine.run_withHistory hrun)

end Steps

/-- **Replies and openings.** Take one device and no other client, a message screen without a
comments screen, and a run on it in which comments are opened, replied to and closed any number of
times, while no call fails or overtakes another. Every comments screen that is opened shows the
comments that the message screen had to begin with and all replies posted so far, in order, and the
stored comments have all replies once no call is outstanding, if and only if no comments screen is
opened after a reply has been posted. -/
theorem session_iff [LinearOrder D] [Zero D] [OfNat D 10000000] {P : Platform D}
    {s t : World Unit D} (h : Sound s) {yak : Yak}
    (hyak : (s.devices ()).messageScreens[0]? = some yak)
    (hclosed : (s.devices ()).commentsScreens = []) {es : List (Event Unit D)}
    (hes : (machine Unit P).Along InSession s es) (hrun : (machine Unit P).run s es = some t) :
    let M := (machine Unit P).withHistory (addReplies yak.imageUrl)
    (M.Along (Shows yak.comments) (s, []) es ∧
      (t.remote.Quiescent → ∀ y, stored t.remote.docs yak.imageUrl = some y →
        ((machine Unit P).history (addReplies yak.imageUrl) [] s es).Sublist y.comments)) ↔
    M.Along OpensFirst (s, []) es := by
  intro M
  have hs : Presents yak.imageUrl yak.comments s := ⟨yak, hyak, rfl, rfl⟩
  have hsession : M.Along (fun p e => InSession p.1 e) (s, []) es := hes.withHistory
  have hiff : M.Along (fun p e => InSession p.1 e ∧ Shows yak.comments p e) (s, []) es ↔
      M.Along (fun p e => InSession p.1 e ∧ OpensFirst p e) (s, []) es := by
    refine Machine.along_congr (I := fun p => Presents yak.imageUrl yak.comments p.1) ?_ ?_ hs
    · intro p e q hp hA hq
      exact hp.step hA.1 (Machine.step_withHistory_eq_some.mp hq).1
    · intro p e hp
      exact and_congr_right fun he => hp.shows_iff he
  constructor
  · rintro ⟨hshows, -⟩
    exact (hiff.mp (hsession.and hshows)).mono fun _ _ => And.right
  · intro hopens
    refine ⟨(hiff.mpr (hsession.and hopens)).mono fun _ _ => And.right, fun hq y hy => ?_⟩
    have hstart : Posting yak.imageUrl yak.comments s [] :=
      ⟨h, hs, Or.inl hclosed, fun h => absurd rfl h⟩
    have hposting := hstart.run (hsession.and hopens) hrun
    by_cases hnil : (machine Unit P).history (addReplies yak.imageUrl) [] s es = []
    · rw [hnil]
      exact List.nil_sublist _
    · have hsettled := hposting.settled hnil
      rw [Remote.settled_of_quiescent hq, storedValue_of_stored hy] at hsettled
      rw [hsettled]
      exact List.sublist_append_right ..

/-- Two replies on one comments screen, which is then closed. -/
theorem session_iff_two_replies :
    let yak := newYak "a" ⟨0, 0⟩ 0
    let opening : List (Event Unit ℕ) := [
      .act () (.loadList 0), .signal (.snapshot 0), .signal (.deliver 0),
      .act () (.selectRow 0), .act () (.present 0)]
    let es : List (Event Unit ℕ) := [
      .act () (.openComments 0), .act () (.reply 0 "x"), .act () (.reply 0 "y"),
      .act () (.closeComments 0), .signal (.snapshot 1), .signal (.snapshot 0),
      .signal (.deliver 0), .signal (.deliver 0), .signal (.apply 0), .signal (.apply 0)]
    ∃ s t y, (machine Unit Platform.discrete).run (single yak ⟨0, 0⟩) opening = some s ∧
      (machine Unit Platform.discrete).run s es = some t ∧
      (machine Unit Platform.discrete).history (addReplies "a") [] s es = ["x", "y"] ∧
      stored t.remote.docs "a" = some y ∧ ["x", "y"].Sublist y.comments := by
  intro yak opening es
  obtain ⟨s, hs⟩ : ∃ s, (machine Unit Platform.discrete).run (single yak ⟨0, 0⟩) opening = some s :=
    Option.isSome_iff_exists.mp (by decide +kernel)
  have h : ∀ s ∈ (machine Unit Platform.discrete).run (single yak ⟨0, 0⟩) opening,
      (s.devices ()).messageScreens[0]? = some yak ∧ (s.devices ()).commentsScreens = [] ∧
      (machine Unit Platform.discrete).Along InSession s es ∧
      ((machine Unit Platform.discrete).withHistory (addReplies "a")).Along OpensFirst (s, []) es ∧
      (machine Unit Platform.discrete).history (addReplies "a") [] s es = ["x", "y"] ∧
      ((machine Unit Platform.discrete).run s es).map
          (fun t => (decide t.remote.Quiescent, stored t.remote.docs "a")) =
        some (true, some { yak with comments := ["x", "y"] }) := by decide +kernel
  obtain ⟨hyak, hclosed, hes, hopens, hreplies, hend⟩ := h s hs
  obtain ⟨t, ht, heq⟩ := Option.map_eq_some_iff.mp hend
  simp only [Prod.mk.injEq, decide_eq_true_eq] at heq
  obtain ⟨hq, hy⟩ := heq
  have hsub := ((session_iff ((initial_single rfl rfl _).sound.run hs) hyak hclosed hes ht).mpr
    hopens).2 hq _ hy
  exact ⟨s, t, _, hs, ht, hreplies, hy, hreplies ▸ hsub⟩

/-- **An overwritten reply.** The comments are opened, a reply is posted and lands, and the comments
are closed. When they are opened again, they are empty; the next reply overwrites the first one. -/
theorem reply_overwritten :
    let yak := newYak "a" ⟨0, 0⟩ 0
    let opening : List (Event Unit ℕ) := [
      .act () (.loadList 0), .signal (.snapshot 0), .signal (.deliver 0),
      .act () (.selectRow 0), .act () (.present 0)]
    let reply (comment : String) : List (Event Unit ℕ) := [
      .act () (.openComments 0), .act () (.reply 0 comment),
      .signal (.snapshot 0), .signal (.deliver 0), .signal (.apply 0), .act () (.closeComments 0)]
    ∃ s t u y, Sound s ∧
      (machine Unit Platform.discrete).run (single yak ⟨0, 0⟩) opening = some s ∧
      (machine Unit Platform.discrete).Along InSession s (reply "x" ++ reply "y") ∧
      (machine Unit Platform.discrete).run s (reply "x" ++ [.act () (.openComments 0)]) = some t ∧
      (t.devices ()).commentsScreens.map Yak.comments = [[]] ∧
      (machine Unit Platform.discrete).run s (reply "x" ++ reply "y") = some u ∧
      u.remote.Quiescent ∧ stored u.remote.docs "a" = some y ∧ y.comments = ["y"] := by
  intro yak opening reply
  obtain ⟨s, hs⟩ : ∃ s, (machine Unit Platform.discrete).run (single yak ⟨0, 0⟩) opening = some s :=
    Option.isSome_iff_exists.mp (by decide +kernel)
  have h : ∀ s ∈ (machine Unit Platform.discrete).run (single yak ⟨0, 0⟩) opening,
      (machine Unit Platform.discrete).Along InSession s (reply "x" ++ reply "y") ∧
      ((machine Unit Platform.discrete).run s (reply "x" ++ [.act () (.openComments 0)])).map
          (fun t => (t.devices ()).commentsScreens.map Yak.comments) = some [[]] ∧
      ((machine Unit Platform.discrete).run s (reply "x" ++ reply "y")).map
          (fun u => (decide u.remote.Quiescent, stored u.remote.docs "a")) =
        some (true, some { yak with comments := ["y"] }) := by decide +kernel
  obtain ⟨hes, hopen, hend⟩ := h s hs
  obtain ⟨t, ht, hshown⟩ := Option.map_eq_some_iff.mp hopen
  obtain ⟨u, hu, heq⟩ := Option.map_eq_some_iff.mp hend
  simp only [Prod.mk.injEq, decide_eq_true_eq] at heq
  obtain ⟨hq, hy⟩ := heq
  exact ⟨s, t, u, _, (initial_single rfl rfl _).sound.run hs, hs, hes, ht, hshown, hu, hq, hy, rfl⟩

end World

end SnapYak
