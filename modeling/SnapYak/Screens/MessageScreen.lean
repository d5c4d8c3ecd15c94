import Mathlib.Data.Rat.Defs
import Mathlib.Tactic.Ring
import SnapYak.Devices.Device
import SnapYak.Screens.Callouts

/-!
# The message screen

The message screen shows the photo of one yak, its likes and two vote buttons, and opens the
comments of the yak (`MessageViewController.swift`, `CommentsViewController.swift`). It keeps a copy
of the yak, and sets its label and its buttons in every handler; nothing else refreshes them.

A photo that the caller has not supplied is fetched by the screen itself. The list screen and the
map screen always supply it (`presented_shows_own_photo`).

An image is referred to by the name of its set in `Assets.xcassets`, and the photo that is shown by
its bytes.

## Main definitions

* `MessageScreen`, `MessageScreen.machine` : the screen with its comments screen, and its runs.
* `MessageScreen.Controls` : the label and the buttons, for a yak and a ballot.

## Main results

* `MessageScreen.controls_after_taps` : the screen after any taps, in terms of the toggle.
* `MessageScreen.hasReplies_run` : the comments screen after any replies.
* `MessageScreen.presented_shows_own_photo` : the photos that are supplied.
-/

namespace SnapYak

/-! ### Labels and images -/

/-- `UIColor(hue:saturation:brightness:alpha:)`. -/
structure HueColor where
  hue : ℚ
  saturation : ℚ
  brightness : ℚ
  alpha : ℚ
deriving DecidableEq

/-- The colour of a label that shows this number of likes. -/
def votesColor (likes : ℤ) : HueColor :=
  if likes ≥ 0 then ⟨3472 / 10000, 1, 57 / 100, 1⟩ else ⟨0, 1, 53 / 100, 1⟩

/-- The image sets of `Assets.xcassets`. -/
def imageSets : List String :=
  ["Yak", "camera tab icon", "comments", "down", "downred", "list tab icon", "map tab icon",
    "setting tab icon", "up", "upgreen"]

/-- `if let img = UIImage(named:) { button.setImage(img, for: .normal) }`, for a button with the
given image. -/
def setImage (name image : String) : String := if name ∈ imageSets then name else image

/-- `votesLabel`; the colour is `nil` until the screen sets it. -/
structure VotesLabel where
  text : String
  textColor : Option HueColor
deriving DecidableEq

/-- The label for a number of likes. -/
def VotesLabel.ofLikes (likes : ℤ) : VotesLabel := ⟨toString likes, some (votesColor likes)⟩

/-! ### The screen -/

/-- The comments screen, with the text of its field. -/
structure CommentsScreen where
  yak : Yak
  text : String

/-- The message screen. -/
structure MessageScreen (D : Type) where
  defaults : UserDefaults D
  yak : Option Yak
  cachedImage : Option Data
  votesLabel : VotesLabel
  upvoteImage : String
  downvoteImage : String
  /-- The photo in `imageView`. -/
  image : Option Data
  /-- The fetches of the screen itself that are outstanding. -/
  fetches : List ImageSource
  /-- The comments screen, while it is presented. -/
  comments : Option CommentsScreen
  /-- The records handed to `updateYakVote`. -/
  votes : List Yak
  /-- The records handed to `updateComments`. -/
  replies : List Yak

namespace MessageScreen

variable {D : Type}

/-- `colorButtons()`. -/
def colorButtons (s : MessageScreen D) : MessageScreen D :=
  match s.yak with
  | none => s
  | some inputYak => { s with
      upvoteImage := setImage
        (if inputYak.imageUrl ∈ s.defaults.voted .up then "upgreen" else "up") s.upvoteImage
      downvoteImage := setImage
        (if inputYak.imageUrl ∈ s.defaults.voted .down then "downred" else "down")
        s.downvoteImage }

/-- `viewDidLoad()`. -/
def viewDidLoad (s : MessageScreen D) : MessageScreen D :=
  match s.yak with
  | none => s
  | some inputYak => colorButtons { s with votesLabel := .ofLikes inputYak.likes }

/-- A presented message screen, loaded from the storyboard. -/
def start (defaults : UserDefaults D) (newVC : MessageViewController) : MessageScreen D :=
  viewDidLoad ⟨defaults, newVC.yak, newVC.cachedImage, ⟨"Label", none⟩, "up", "down", none, [],
    none, [], []⟩

/-- `viewWillAppear(_:)`; without a photo and without a yak it traps. -/
def viewWillAppear (s : MessageScreen D) : Option (MessageScreen D) :=
  match s.cachedImage with
  | some cachedImage => some { s with image := some cachedImage }
  | none => s.yak.map fun yak => { s with fetches := s.fetches ++ [fetchImage yak.imageUrl] }

/-- `upVote()` and `downVote()`: the label is set whenever a record is handed over, and the buttons
are coloured at the end. -/
def vote (dir : Direction) (s : MessageScreen D) : Option (MessageScreen D) := do
  let yak ← s.yak
  let (defaults, yak, passed) ← MessageViewController.vote dir s.defaults yak
  some (colorButtons { s with
    defaults := defaults
    yak := some yak
    votesLabel := passed.foldl (fun _ yak => .ofLikes yak.likes) s.votesLabel
    votes := s.votes ++ passed })

/-- `openComments(_:)` and `prepare(for:sender:)`. -/
def openComments (s : MessageScreen D) : Option (MessageScreen D) :=
  s.yak.map fun yak => { s with comments := some ⟨MessageViewController.prepare yak, ""⟩ }

/-- `CommentsViewController.reply(_:)`. -/
def reply (s : MessageScreen D) : Option (MessageScreen D) := do
  let comments ← s.comments
  let (yak, passed) := CommentsViewController.reply comments.yak comments.text
  some { s with comments := some ⟨yak, ""⟩, replies := s.replies ++ passed }

/-- What can happen to the screen. -/
inductive Event
  | viewWillAppear
  | vote (dir : Direction)
  | deliverImage (n : ℕ)
  | failImage (n : ℕ)
  | openComments
  /-- The text of the field of the comments screen is changed. -/
  | edit (text : String)
  | reply
  | closeComments

/-- The tap on a vote button. -/
def Event.tap? : Event → Option Direction
  | .vote dir => some dir
  | _ => none

/-- All runs, `contents` being the bytes of the photos. The comments screen covers the buttons. -/
def machine (D : Type) (contents : ImageSource → Data) : Machine (MessageScreen D) Event where
  step s
    | .viewWillAppear => s.viewWillAppear
    | .vote dir => if s.comments.isSome then none else s.vote dir
    | .deliverImage n => do
      let source ← s.fetches[n]?
      some { s with fetches := s.fetches.eraseIdx n, image := some (contents source) }
    | .failImage n => do
      let _ ← s.fetches[n]?
      some { s with fetches := s.fetches.eraseIdx n }
    | .openComments => if s.comments.isSome then none else s.openComments
    | .edit text => s.comments.map fun comments =>
        { s with comments := some { comments with text := text } }
    | .reply => s.reply
    | .closeComments => s.comments.map fun _ => { s with comments := none }

variable {contents : ImageSource → Data} {s t : MessageScreen D} {e : Event} {es : List Event}

/-- The ways a step can act. -/
inductive StepCases (contents : ImageSource → Data) (s : MessageScreen D) :
    Event → MessageScreen D → Prop
  | cached {cachedImage : Data} (hcached : s.cachedImage = some cachedImage) :
      StepCases contents s .viewWillAppear { s with image := some cachedImage }
  | fetch {yak : Yak} (hcached : s.cachedImage = none) (hyak : s.yak = some yak) :
      StepCases contents s .viewWillAppear
        { s with fetches := s.fetches ++ [fetchImage yak.imageUrl] }
  | vote {dir : Direction} {t : MessageScreen D} (hclosed : s.comments = none)
      (hvote : s.vote dir = some t) : StepCases contents s (.vote dir) t
  | deliverImage {n : ℕ} {source : ImageSource} (hsource : s.fetches[n]? = some source) :
      StepCases contents s (.deliverImage n)
        { s with fetches := s.fetches.eraseIdx n, image := some (contents source) }
  | failImage {n : ℕ} {source : ImageSource} (hsource : s.fetches[n]? = some source) :
      StepCases contents s (.failImage n) { s with fetches := s.fetches.eraseIdx n }
  | openComments {yak : Yak} (hyak : s.yak = some yak) :
      StepCases contents s .openComments
        { s with comments := some ⟨MessageViewController.prepare yak, ""⟩ }
  | edit {text : String} {c : CommentsScreen} (hc : s.comments = some c) :
      StepCases contents s (.edit text) { s with comments := some { c with text := text } }
  | reply {c : CommentsScreen} (hc : s.comments = some c) :
      StepCases contents s .reply { s with
        comments := some ⟨c.yak.addComment c.text, ""⟩
        replies := s.replies ++ [c.yak.addComment c.text] }
  | closeComments {c : CommentsScreen} (hc : s.comments = some c) :
      StepCases contents s .closeComments { s with comments := none }

/-- There are no other ways. -/
theorem stepCases_of_step (h : (machine D contents).step s e = some t) :
    StepCases contents s e t := by
  cases e with
  | viewWillAppear =>
    simp only [machine, viewWillAppear] at h
    split at h
    · next cachedImage hcached =>
      obtain rfl := Option.some.inj h
      exact .cached hcached
    · next hcached =>
      obtain ⟨yak, hyak, rfl⟩ := Option.map_eq_some_iff.mp h
      exact .fetch hcached hyak
  | vote dir =>
    simp only [machine] at h
    split_ifs at h with hcovered
    exact .vote (by simpa using hcovered) h
  | deliverImage n =>
    obtain ⟨source, hsource, h⟩ := Option.bind_eq_some_iff.mp h
    obtain rfl := Option.some.inj h
    exact .deliverImage hsource
  | failImage n =>
    obtain ⟨source, hsource, h⟩ := Option.bind_eq_some_iff.mp h
    obtain rfl := Option.some.inj h
    exact .failImage hsource
  | openComments =>
    simp only [machine, openComments] at h
    split_ifs at h
    obtain ⟨yak, hyak, rfl⟩ := Option.map_eq_some_iff.mp h
    exact .openComments hyak
  | edit text =>
    obtain ⟨c, hc, rfl⟩ := Option.map_eq_some_iff.mp h
    exact .edit hc
  | reply =>
    obtain ⟨c, hc, h⟩ := Option.bind_eq_some_iff.mp h
    obtain rfl := Option.some.inj h
    exact .reply hc
  | closeComments =>
    obtain ⟨c, hc, rfl⟩ := Option.map_eq_some_iff.mp h
    exact .closeComments hc

/-! ### The label and the buttons -/

/-- The label and the buttons for a yak, and for the ballot of the device on it. -/
structure Controls (y : Yak) (ballot : Ballot) (s : MessageScreen D) : Prop where
  yak : s.yak = some y
  votesLabel : s.votesLabel = .ofLikes y.likes
  upvoteImage : s.upvoteImage = if ballot = .up then "upgreen" else "up"
  downvoteImage : s.downvoteImage = if ballot = .down then "downred" else "down"

variable {b : String → Ballot} {y : Yak} {ballot : Ballot}

/-- The image sets of the buttons are there. -/
theorem setImage_upvote (c : Prop) [Decidable c] (image : String) :
    setImage (if c then "upgreen" else "up") image = if c then "upgreen" else "up" := by
  split_ifs <;> rfl

theorem setImage_downvote (c : Prop) [Decidable c] (image : String) :
    setImage (if c then "downred" else "down") image = if c then "downred" else "down" := by
  split_ifs <;> rfl

@[simp] theorem defaults_colorButtons (s : MessageScreen D) :
    s.colorButtons.defaults = s.defaults := by
  simp only [colorButtons]
  split <;> rfl

@[simp] theorem votes_colorButtons (s : MessageScreen D) : s.colorButtons.votes = s.votes := by
  simp only [colorButtons]
  split <;> rfl

/-- Coloured buttons show the ballot. -/
theorem controls_colorButtons (hb : Represents s.defaults b) (hballot : b y.imageUrl = ballot)
    (hyak : s.yak = some y) (hlabel : s.votesLabel = .ofLikes y.likes) :
    s.colorButtons.Controls y ballot := by
  simp only [colorButtons, hyak, hb.mem_voted, hballot, setImage_upvote, setImage_downvote]
  exact ⟨rfl, hlabel, rfl, rfl⟩

/-- The copy of a yak after taps that turn the ballot. -/
def turned (y : Yak) (before after : Ballot) : Yak := y.addLikes (after.value - before.value)

@[simp] theorem turned_imageUrl (y : Yak) (before after : Ballot) :
    (turned y before after).imageUrl = y.imageUrl := rfl

/-- The screen of a yak after the given taps. Each tap has handed over the copy that it left. -/
structure Tapped (b : String → Ballot) (y : Yak) (taps : List Direction) (s : MessageScreen D) :
    Prop where
  controls : s.Controls (turned y (b y.imageUrl) (taps.foldl Ballot.tap (b y.imageUrl)))
    (taps.foldl Ballot.tap (b y.imageUrl))
  defaults : Represents s.defaults
    (Function.update b y.imageUrl (taps.foldl Ballot.tap (b y.imageUrl)))
  votes : s.votes = (taps.inits.tail).map fun taps =>
    turned y (b y.imageUrl) (taps.foldl Ballot.tap (b y.imageUrl))

theorem tapped_start {defaults : UserDefaults D} (hb : Represents defaults b)
    {newVC : MessageViewController} (hyak : newVC.yak = some y) :
    (start defaults newVC).Tapped b y [] := by
  simp only [start, viewDidLoad, hyak]
  refine ⟨?_, ?_, ?_⟩
  · have hturned : turned y (b y.imageUrl) (b y.imageUrl) = y := by
      rw [turned, sub_self, Yak.addLikes, add_zero]
    rw [List.foldl_nil, hturned]
    exact controls_colorButtons hb rfl rfl rfl
  · simpa using hb
  · exact votes_colorButtons _

/-- What the taps act on. -/
def face (s : MessageScreen D) :
    Option Yak × VotesLabel × String × String × UserDefaults D × List Yak :=
  (s.yak, s.votesLabel, s.upvoteImage, s.downvoteImage, s.defaults, s.votes)

/-- Nothing else acts on it. -/
theorem face_step (he : e.tap? = none) (ht : (machine D contents).step s e = some t) :
    t.face = s.face := by
  cases stepCases_of_step ht with
  | vote => exact nomatch he
  | _ => rfl

theorem Tapped.congr {taps : List Direction} (h : s.Tapped b y taps) (hface : t.face = s.face) :
    t.Tapped b y taps := by
  simp only [face, Prod.mk.injEq] at hface
  obtain ⟨hyak, hlabel, hup, hdown, hdefaults, hvotes⟩ := hface
  refine ⟨⟨hyak ▸ h.controls.yak, hlabel ▸ h.controls.votesLabel, hup ▸ h.controls.upvoteImage,
    hdown ▸ h.controls.downvoteImage⟩, hdefaults ▸ h.defaults, hvotes ▸ h.votes⟩

theorem inits_tail_concat (taps : List Direction) (dir : Direction) :
    (taps ++ [dir]).inits.tail = taps.inits.tail ++ [taps ++ [dir]] := by
  rw [List.inits_append, List.tail_append_of_ne_nil (by cases taps <;> simp)]
  rfl

/-- A tap turns the ballot, and shows it. -/
theorem Tapped.vote {taps : List Direction} (h : s.Tapped b y taps) {dir : Direction}
    (ht : s.vote dir = some t) : t.Tapped b y (taps ++ [dir]) := by
  have hballot : (taps ++ [dir]).foldl Ballot.tap (b y.imageUrl) =
      (taps.foldl Ballot.tap (b y.imageUrl)).tap dir := by
    rw [List.foldl_append, List.foldl_cons, List.foldl_nil]
  obtain ⟨hrep, hyak, hpassed⟩ := h.defaults.vote dir
    (turned y (b y.imageUrl) (taps.foldl Ballot.tap (b y.imageUrl)))
  have hturned (before : Ballot) : (turned y (b y.imageUrl) before).addLikes
      (((taps ++ [dir]).foldl Ballot.tap (b y.imageUrl)).value - before.value) =
        turned y (b y.imageUrl) ((taps ++ [dir]).foldl Ballot.tap (b y.imageUrl)) := by
    simp only [turned, Yak.addLikes_addLikes, sub_add_sub_cancel']
  simp only [turned_imageUrl, Function.update_self, tapBallots, Function.update_idem, ← hballot,
    hturned] at hrep hyak hpassed
  simp only [MessageScreen.vote, h.controls.yak, Option.bind_eq_bind, Option.bind_some,
    Option.bind_eq_some_iff] at ht
  obtain ⟨r, hr, ht⟩ := ht
  obtain ⟨-, rfl⟩ := MessageViewController.vote_eq_some.mp hr
  simp only [hyak, hpassed, List.foldl_cons, List.foldl_nil] at ht
  obtain rfl := Option.some.inj ht
  refine ⟨?_, ?_, ?_⟩
  · exact controls_colorButtons hrep (Function.update_self ..) rfl rfl
  · rwa [defaults_colorButtons]
  · rw [votes_colorButtons, h.votes, inits_tail_concat, List.map_append]
    rfl

/-- A step taps a button, or leaves the controls alone. -/
theorem Tapped.step {taps : List Direction} (h : s.Tapped b y taps)
    (ht : (machine D contents).step s e = some t) : t.Tapped b y (taps ++ e.tap?.toList) := by
  cases htap : e.tap? with
  | none =>
    rw [Option.toList_none, List.append_nil]
    exact h.congr (face_step htap ht)
  | some dir =>
    cases stepCases_of_step ht with
    | vote hclosed hvote =>
      obtain rfl := Option.some.inj htap
      exact h.vote hvote
    | _ => exact nomatch htap

/-- **The message screen shows the toggle.** Open the screen on any yak, on a device whose lists
record ballots. After every run of taps, replies and photos in any order, the label shows the likes
that the yak was opened with, changed by the difference between the ballot now and then, and has the
colour of this number; the buttons show the ballot; the lists record it; and each tap has handed
over one record, with the likes that the label showed after it. -/
theorem controls_after_taps {defaults : UserDefaults D} (hb : Represents defaults b)
    {newVC : MessageViewController} (hyak : newVC.yak = some y)
    (ht : (machine D contents).run (start defaults newVC) es = some t) :
    let taps := es.filterMap Event.tap?
    let ballot := taps.foldl Ballot.tap (b y.imageUrl)
    t.Controls (turned y (b y.imageUrl) ballot) ballot ∧
    Represents t.defaults (Function.update b y.imageUrl ballot) ∧
    t.votes = taps.inits.tail.map fun taps =>
      turned y (b y.imageUrl) (taps.foldl Ballot.tap (b y.imageUrl)) := by
  intro taps ballot
  have htaps : (machine D contents).log (fun _ e => e.tap?.toList) (start defaults newVC) es =
      taps := by
    rw [Machine.log_label ht, ← List.filterMap_eq_flatMap_toList]
  have h : t.Tapped b y taps := by
    rw [← htaps]
    exact Machine.history_induction (f := fun taps _ e => taps ++ e.tap?.toList)
      (I := fun s taps => Tapped b y taps s) (A := fun _ _ => True) (fun hs _ ht => hs.step ht)
      (tapped_start hb hyak) (.trivial _ _) ht
  exact ⟨h.controls, h.defaults, h.votes⟩

/-- A yak with one dislike is voted up and then down, with a reply in between. -/
theorem controls_after_taps_up_and_down :
    let yak : Yak := ⟨"user", "image_0.jpg", ⟨0, 0⟩, 0, -1, []⟩
    ∃ t, (machine ℕ fun _ => []).run (start .empty ⟨0, some yak, some [1]⟩) [.viewWillAppear,
        .vote .up, .openComments, .edit "hi", .reply, .closeComments, .vote .down] = some t ∧
      t.votesLabel = .ofLikes (-2) ∧ t.upvoteImage = "up" ∧ t.downvoteImage = "downred" ∧
      t.votes.map Yak.likes = [0, -2] := by
  intro yak
  obtain ⟨t, ht⟩ : ∃ t, (machine ℕ fun _ => []).run (start .empty ⟨0, some yak, some [1]⟩)
      [.viewWillAppear, .vote .up, .openComments, .edit "hi", .reply, .closeComments,
        .vote .down] = some t := ⟨_, rfl⟩
  obtain ⟨hcontrols, -, hvotes⟩ := controls_after_taps Represents.empty rfl ht
  exact ⟨t, ht, hcontrols.votesLabel, hcontrols.upvoteImage, hcontrols.downvoteImage,
    hvotes ▸ rfl⟩

/-! ### The comments -/

/-- The replies since the comments screen was opened. -/
def posted (replies : List String) (s : MessageScreen D) : Event → List String
  | .openComments => []
  | .reply => replies ++ (s.comments.map CommentsScreen.text).toList
  | _ => replies

/-- The comments screen has the copy of the message screen, with the replies. -/
def HasReplies (s : MessageScreen D) (replies : List String) : Prop :=
  ∀ c ∈ s.comments, ∃ y, s.yak = some y ∧ c.yak = { y with comments := y.comments ++ replies }

@[simp] theorem comments_colorButtons (s : MessageScreen D) :
    s.colorButtons.comments = s.comments := by
  simp only [colorButtons]
  split <;> rfl

theorem comments_vote {dir : Direction} (h : s.vote dir = some t) : t.comments = s.comments := by
  obtain ⟨yak, -, h⟩ := Option.bind_eq_some_iff.mp h
  obtain ⟨r, -, h⟩ := Option.bind_eq_some_iff.mp h
  obtain rfl := Option.some.inj h
  exact comments_colorButtons _

theorem hasReplies_step {replies : List String} (h : s.HasReplies replies)
    (ht : (machine D contents).step s e = some t) : t.HasReplies (posted replies s e) := by
  cases stepCases_of_step ht with
  | cached | fetch | deliverImage | failImage => exact h
  | vote hclosed hvote =>
    intro c hc
    rw [comments_vote hvote, hclosed] at hc
    exact nomatch hc
  | openComments hyak =>
    rintro c ⟨⟩
    exact ⟨_, hyak, by simp [posted, MessageViewController.prepare]⟩
  | @edit text c hc =>
    rintro c' ⟨⟩
    exact h c hc
  | @reply c hc =>
    rintro c' ⟨⟩
    obtain ⟨y, hy, hcopy⟩ := h c hc
    exact ⟨y, hy, by simp [posted, hc, Yak.addComment, hcopy]⟩
  | closeComments hc =>
    rintro c' ⟨⟩

/-- **Replies.** After every run, the comments screen has the copy of the message screen, and its
comments are those of this copy followed by the replies since it was opened. -/
theorem hasReplies_run {defaults : UserDefaults D} {newVC : MessageViewController}
    (ht : (machine D contents).run (start defaults newVC) es = some t) :
    t.HasReplies ((machine D contents).history posted [] (start defaults newVC) es) := by
  refine Machine.history_induction (I := HasReplies) (A := fun _ _ => True)
    (fun hs _ ht => hasReplies_step hs ht) (fun c hc => ?_) (.trivial _ _) ht
  have hnone : (start defaults newVC).comments = none := by
    simp only [start, viewDidLoad, colorButtons]
    split <;> rfl
  simp [hnone] at hc

/-! ### The photo -/

/-- The photo of a screen, and what it fetches. -/
def photo (s : MessageScreen D) : Option Data × List ImageSource × Option Data :=
  (s.cachedImage, s.fetches, s.image)

@[simp] theorem photo_colorButtons (s : MessageScreen D) : s.colorButtons.photo = s.photo := by
  simp only [colorButtons]
  split <;> rfl

theorem photo_vote {dir : Direction} (h : s.vote dir = some t) : t.photo = s.photo := by
  obtain ⟨yak, -, h⟩ := Option.bind_eq_some_iff.mp h
  obtain ⟨r, -, h⟩ := Option.bind_eq_some_iff.mp h
  obtain rfl := Option.some.inj h
  exact photo_colorButtons _

/-- A screen that was given a photo shows it when it appears, and fetches nothing. -/
theorem photo_step {image : Data} {shown : Option Data} (h : s.photo = (some image, [], shown))
    (ht : (machine D contents).step s e = some t) :
    t.photo = (some image, [], if e matches .viewWillAppear then some image else shown) := by
  simp only [photo, Prod.mk.injEq] at h
  obtain ⟨hcached, hfetches, himage⟩ := h
  cases stepCases_of_step ht with
  | cached hcached' =>
    obtain rfl := Option.some.inj (hcached.symm.trans hcached')
    simp only [photo, hcached, hfetches, ↓reduceIte]
  | fetch hcached' => exact absurd (hcached.symm.trans hcached') (by simp)
  | vote hclosed hvote =>
    rw [photo_vote hvote]
    simp [photo, hcached, hfetches, himage]
  | deliverImage hsource | failImage hsource => simp [hfetches] at hsource
  | openComments | edit | reply | closeComments => simp [photo, hcached, hfetches, himage]

/-- A screen that was given a photo never fetches one, and shows it from its first appearance on. -/
theorem photo_run {image : Data} {shown : Option Data} (h : s.photo = (some image, [], shown))
    (ht : (machine D contents).run s es = some t) :
    t.photo = (some image, [],
      if es.any (· matches .viewWillAppear) then some image else shown) := by
  induction es generalizing s shown with
  | nil =>
    obtain rfl : s = t := by simpa using ht
    exact h
  | cons e es ih =>
    obtain ⟨u, hu, ht⟩ := Machine.run_cons_eq_some.mp ht
    rw [ih (photo_step h hu) ht, List.any_cons]
    cases e <;> simp

theorem photo_start (defaults : UserDefaults D) (newVC : MessageViewController) :
    (start defaults newVC).photo = (newVC.cachedImage, [], none) := by
  simp only [start, viewDidLoad]
  split
  · rfl
  · exact photo_colorButtons _

variable [LinearOrder D] [Zero D] [OfNat D 10000000]

/-- The message screen was presented in some run of the list screen or of the map screen. -/
inductive Presented (P : Platform D) (contents : ImageSource → Data) :
    MessageViewController → Prop
  | list {selectedSegmentIndex : ℕ} {defaults : UserDefaults D} {location : Option GeoPoint}
      {es : List (ListScreen.Event D)} {s : ListScreen D} {newVC : MessageViewController}
      (hs : (ListScreen.machine P contents).run
        (ListScreen.start selectedSegmentIndex defaults location) es = some s)
      (hmem : newVC ∈ s.presented) : Presented P contents newVC
  | map {defaults : UserDefaults D} {location : Option GeoPoint} {es : List MapCallouts.Event}
      {s : MapCallouts D} {newVC : MessageViewController}
      (hs : (MapCallouts.machine D contents).run (MapCallouts.start defaults location) es = some s)
      (hmem : newVC ∈ s.photos.presented) : Presented P contents newVC

/-- A presented message screen has a yak and the photo of this yak. -/
theorem Presented.exists_yak {P : Platform D} {newVC : MessageViewController}
    (h : Presented P contents newVC) : ∃ yak, newVC.yak = some yak ∧
      newVC.cachedImage = some (contents (fetchImage yak.imageUrl)) := by
  cases h with
  | list hs hmem =>
    obtain ⟨yak, -, h⟩ := (ListScreen.opened_run hs).presented newVC hmem
    exact ⟨yak, h⟩
  | map hs hmem =>
    obtain ⟨yak, -, h⟩ := (Photos.opened_run
      ((MapCallouts.opening D contents).run_image trivial hs)).presented newVC hmem
    exact ⟨yak, h⟩

/-- **Presented message screens show their own photo.** Whatever the list screen and the map screen
have been through, and whatever happens to the message screen that they hand to `present`: it never
fetches a photo itself, and from its first appearance on it shows the photo of the yak that it was
opened for. -/
theorem presented_shows_own_photo {P : Platform D} {newVC : MessageViewController}
    (hnew : Presented P contents newVC) {defaults : UserDefaults D}
    (ht : (machine D contents).run (start defaults newVC) es = some t) :
    ∃ yak, newVC.yak = some yak ∧ t.fetches = [] ∧
      t.image = if es.any (· matches .viewWillAppear)
        then some (contents (fetchImage yak.imageUrl)) else none := by
  obtain ⟨yak, hyak, hcached⟩ := hnew.exists_yak
  have hphoto := photo_run ((photo_start defaults newVC).trans (by rw [hcached])) ht
  simp only [photo, Prod.mk.injEq] at hphoto
  exact ⟨yak, hyak, hphoto.2⟩

/-- A row is selected, and the photo arrives after the yak has got another row; the message screen
appears, and again after a vote. -/
theorem presented_shows_own_photo_after_vote :
    let yak : Yak := ⟨"user", "image_0.jpg", ⟨0, 0⟩, 0, 0, []⟩
    let yak' : Yak := ⟨"user", "image_1.jpg", ⟨1, 1⟩, 0, 5, []⟩
    let contents : ImageSource → Data
      | .http _ => []
      | .storage ref => ref.object.flatten.map fun c => c.val.toUInt8
    ∃ s newVC, (ListScreen.machine Platform.discrete contents).run
        (ListScreen.start 0 .empty (some ⟨0, 0⟩)) [.deliver 0 [yak, yak'], .layout [0, 1],
          .selectRow 1, .pullToRefresh, .deliver 0 [yak'], .deliverImage 0] = some s ∧
      newVC ∈ s.presented ∧ ∃ t, (machine ℕ contents).run
        (start ⟨none, none, some 10000000⟩ newVC) [.viewWillAppear, .vote .down, .viewWillAppear] =
          some t ∧ t.fetches = [] ∧ t.image = some (contents (fetchImage "image_1.jpg")) := by
  intro yak yak' contents
  let newVC : MessageViewController := ⟨0, some yak', some (contents (fetchImage "image_1.jpg"))⟩
  have hrun : ((ListScreen.machine Platform.discrete contents).run
    (ListScreen.start 0 .empty (some ⟨0, 0⟩)) [.deliver 0 [yak, yak'], .layout [0, 1],
      .selectRow 1, .pullToRefresh, .deliver 0 [yak'], .deliverImage 0]).map (fun s =>
        s.presented.map fun v => (v.number, v.yak, v.cachedImage)) =
          some [(newVC.number, newVC.yak, newVC.cachedImage)] := by decide +kernel
  obtain ⟨s, hs, hpresented⟩ := Option.map_eq_some_iff.mp hrun
  obtain ⟨v, hv, heq⟩ := List.map_eq_singleton_iff.mp hpresented
  have hnewVC : v = newVC := by
    obtain ⟨number, yak, cachedImage⟩ := v
    simp only [Prod.mk.injEq] at heq
    obtain ⟨rfl, rfl, rfl⟩ := heq
    rfl
  have hmem : newVC ∈ s.presented := by rw [hv, hnewVC, List.mem_singleton]
  obtain ⟨t, ht⟩ : ∃ t, (machine ℕ contents).run (start ⟨none, none, some 10000000⟩ newVC)
      [.viewWillAppear, .vote .down, .viewWillAppear] = some t := ⟨_, rfl⟩
  obtain ⟨yak'', hyak, hfetches, himage⟩ := presented_shows_own_photo (.list hs hmem) ht
  obtain rfl : yak' = yak'' := Option.some.inj hyak
  exact ⟨s, newVC, hs, hmem, t, ht, hfetches, by simpa using himage⟩

end MessageScreen

end SnapYak
