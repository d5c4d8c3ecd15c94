import Mathlib.Data.List.Nodup
import Mathlib.Logic.Function.Basic
import SnapYak.Machine.Run
import SnapYak.Store.Yak

/-!
# Voting

A device keeps the `image_url`s of the yaks it has voted for in two lists of its user defaults. Four
handlers write them, `upVote` and `downVote` of the list screen and of the message screen. Each
consists of two branches: the first takes an existing vote of its direction back, and the second
casts a vote, unless the first one has just been taken.

The four bodies differ in the direction, and in where the copy of the yak is kept: a row of
`messages`, or the `yak` of the screen.

## Main definitions

* `UserDefaults` : what a device keeps between runs of the app.
* `Ballot`, `Ballot.tap`, `Ballot.value` : the vote of a device on one yak, as a three-state toggle.
* `vote` : the body that the handlers share.
* `UserDefaults.swing` : what a tap adds to the likes of a copy.
* `Represents` : the two lists record a ballot for each yak.

## Main results

* `yak_vote`, `passed_vote` : the copy that a tap leaves and hands over.
* `Represents.vote` : what a tap does to the lists and to the copy, in terms of the toggle.
* `vote_handlers` : the four handlers over all sequences of taps.
-/

namespace SnapYak

/-- Up or down. -/
inductive Direction
  | up
  | down
deriving DecidableEq

namespace Direction

/-- What a vote adds to the likes. -/
def value : Direction → ℤ
  | up => 1
  | down => -1

def opposite : Direction → Direction
  | up => down
  | down => up

theorem eq_or_eq_opposite (dir dir' : Direction) : dir' = dir ∨ dir' = dir.opposite := by
  cases dir <;> cases dir' <;> simp [opposite]

end Direction

/-! ### What a device keeps -/

/-- `UserDefaults.standard`, under the keys that the app uses. -/
structure UserDefaults (D : Type) where
  upvoted : Option (List String)
  downvoted : Option (List String)
  radius : Option D

namespace UserDefaults

variable {D : Type}

/-- The defaults of a device on which the app has not run. -/
def empty : UserDefaults D := ⟨none, none, none⟩

/-- `(UserDefaults.standard.array(forKey:) ?? []) as! [String]`, for the key of the direction. -/
def voted (d : UserDefaults D) : Direction → List String
  | .up => d.upvoted.getD []
  | .down => d.downvoted.getD []

/-- `UserDefaults.standard.set(_:forKey:)`, for the key of the direction. -/
def setVoted (d : UserDefaults D) : Direction → List String → UserDefaults D
  | .up, l => { d with upvoted := some l }
  | .down, l => { d with downvoted := some l }

@[simp] theorem voted_empty (dir : Direction) : (empty : UserDefaults D).voted dir = [] := by
  cases dir <;> rfl

@[simp] theorem voted_setVoted_self (d : UserDefaults D) (dir : Direction) (l : List String) :
    (d.setVoted dir l).voted dir = l := by
  cases dir <;> rfl

@[simp] theorem voted_setVoted_opposite (d : UserDefaults D) (dir : Direction) (l : List String) :
    (d.setVoted dir l).voted dir.opposite = d.voted dir.opposite := by
  cases dir <;> rfl

@[simp] theorem voted_setVoted_opposite_self (d : UserDefaults D) (dir : Direction)
    (l : List String) : (d.setVoted dir.opposite l).voted dir = d.voted dir := by
  cases dir <;> rfl

end UserDefaults

/-! ### The three-state toggle -/

/-- The vote of a device on one yak. -/
inductive Ballot
  | none
  | up
  | down
deriving DecidableEq

/-- The ballot that a vote in the direction leaves. -/
def Direction.ballot : Direction → Ballot
  | up => .up
  | down => .down

namespace Ballot

/-- A tap takes an equal vote back and replaces every other. -/
def tap (b : Ballot) (dir : Direction) : Ballot :=
  if b = dir.ballot then none else dir.ballot

/-- What the ballot contributes to the likes. -/
def value : Ballot → ℤ
  | none => 0
  | up => 1
  | down => -1

end Ballot

/-- The ballot that the lists record for a yak. -/
def UserDefaults.ballot {D : Type} (d : UserDefaults D) (url : String) : Ballot :=
  if url ∈ d.voted .up then .up else if url ∈ d.voted .down then .down else .none

/-- What a tap adds to the likes of a copy with this `image_url`: it takes a vote of its direction
back, replaces one of the other direction, or is the first. -/
def UserDefaults.swing {D : Type} (d : UserDefaults D) (dir : Direction) (url : String) : ℤ :=
  if url ∈ d.voted dir then -dir.value
  else if url ∈ d.voted dir.opposite then dir.value + dir.value
  else dir.value

/-- Every tap changes the likes. -/
theorem UserDefaults.swing_ne_zero {D : Type} (d : UserDefaults D) (dir : Direction)
    (url : String) : d.swing dir url ≠ 0 := by
  rw [swing]
  split_ifs <;> cases dir <;> decide

/-- What the lists contribute to the likes of a yak. -/
def UserDefaults.contribution {D : Type} (d : UserDefaults D) (url : String) : ℤ :=
  (if url ∈ d.voted .up then 1 else 0) - (if url ∈ d.voted .down then 1 else 0)

theorem Direction.ballot_ne_none (dir : Direction) : dir.ballot ≠ .none := by
  cases dir <;> decide

theorem Direction.ballot_ne_opposite (dir : Direction) : dir.ballot ≠ dir.opposite.ballot := by
  cases dir <;> decide

theorem Direction.value_opposite (dir : Direction) : dir.opposite.value = -dir.value := by
  cases dir <;> rfl

theorem Direction.value_ballot (dir : Direction) : dir.ballot.value = dir.value := by
  cases dir <;> rfl

/-- A ballot other than that of a direction is the opposite one or none. -/
theorem Ballot.eq_opposite_or_none {b : Ballot} {dir : Direction} (h : b ≠ dir.ballot) :
    b = dir.opposite.ballot ∨ b = none := by
  cases b <;> cases dir <;> simp_all [Direction.ballot, Direction.opposite]

/-- The ballots after a tap on a yak with this `image_url`. -/
def tapBallots (b : String → Ballot) (url : String) (dir : Direction) : String → Ballot :=
  Function.update b url ((b url).tap dir)

/-! ### The handlers -/

/-- `filter { $0 != url }`. -/
def without (l : List String) (url : String) : List String := l.filter (· ≠ url)

theorem mem_without {l : List String} {u url : String} : u ∈ without l url ↔ u ∈ l ∧ u ≠ url := by
  simp [without]

theorem nodup_without {l : List String} (h : l.Nodup) (url : String) : (without l url).Nodup :=
  h.filter _

theorem without_of_notMem {l : List String} {url : String} (h : url ∉ l) : without l url = l :=
  List.filter_eq_self.mpr fun u hu => by
    have : u ≠ url := fun he => h (he ▸ hu)
    simpa using this

/-- A yak with more likes. The sum is an integer of any size here; that of `Int` traps when it is
none of 64 bits (`IsInt`). -/
def Yak.addLikes (y : Yak) (n : ℤ) : Yak := { y with likes := y.likes + n }

@[simp] theorem Yak.imageUrl_addLikes (y : Yak) (n : ℤ) : (y.addLikes n).imageUrl = y.imageUrl :=
  rfl

@[simp] theorem Yak.addLikes_addLikes (y : Yak) (m n : ℤ) :
    (y.addLikes m).addLikes n = y.addLikes (m + n) := by
  simp only [addLikes, add_assoc]

/-- The variables of a vote handler. For `upVote`, `own` is the local `upvoted`, `other` the local
`downvoted` and `undone` the flag `unupvoted`. -/
structure Voting (D : Type) where
  defaults : UserDefaults D
  own : List String
  other : List String
  yak : Yak
  undone : Bool
  /-- The records handed to `updateYakVote` so far. -/
  passed : List Yak

namespace Voting

variable {D : Type}

/-- The first branch: a vote of the same direction is taken back. Only the list of the direction is
saved. -/
def undo (dir : Direction) (v : Voting D) : Voting D :=
  if v.yak.imageUrl ∈ v.own then
    let yak := v.yak.addLikes (-dir.value)
    let own := without v.own yak.imageUrl
    { v with
      defaults := v.defaults.setVoted dir own
      own := own
      yak := yak
      undone := true
      passed := v.passed ++ [yak] }
  else v

/-- A vote of the other direction is taken back, in the local variables. -/
def retract (dir : Direction) (v : Voting D) : Voting D :=
  if v.yak.imageUrl ∈ v.other then
    { v with
      yak := v.yak.addLikes dir.value
      other := without v.other v.yak.imageUrl }
  else v

/-- The second branch: a vote is cast, unless one has just been taken back. Both lists are saved. -/
def cast (dir : Direction) (v : Voting D) : Voting D :=
  if v.yak.imageUrl ∉ v.own ∧ ¬v.undone then
    let v := v.retract dir
    let yak := v.yak.addLikes dir.value
    let own := v.own ++ [yak.imageUrl]
    { v with
      defaults := (v.defaults.setVoted dir own).setVoted dir.opposite v.other
      own := own
      yak := yak
      passed := v.passed ++ [yak] }
  else v

end Voting

variable {D : Type}

/-- The body that the four handlers share: what becomes of the defaults and of a copy, and the
records handed to `updateYakVote`. One tap only adds to the likes or only takes from them, and that
before anything is saved: the tap traps, with the defaults as they were, exactly when the likes that
it ends with are no `Int`. -/
def vote (dir : Direction) (defaults : UserDefaults D) (yak : Yak) : Voting D :=
  (Voting.undo dir ⟨defaults, defaults.voted dir, defaults.voted dir.opposite, yak, false, []⟩).cast
    dir

/-- A vote handler of the list screen, for the row `tag`. Both branches write the local copy back to
the row; a row that does not exist and likes that overflow trap. -/
def MessagesListViewController.vote (dir : Direction) (defaults : UserDefaults D)
    (messages : List Yak) (tag : ℕ) : Option (UserDefaults D × List Yak × List Yak) := do
  let yak ← messages[tag]?
  let v := SnapYak.vote dir defaults yak
  if IsInt v.yak.likes then some (v.defaults, messages.set tag v.yak, v.passed) else none

/-- `MessagesListViewController.upVote(sender:)`. -/
def MessagesListViewController.upVote (defaults : UserDefaults D) (messages : List Yak) (tag : ℕ) :
    Option (UserDefaults D × List Yak × List Yak) :=
  MessagesListViewController.vote .up defaults messages tag

/-- `MessagesListViewController.downVote(sender:)`. -/
def MessagesListViewController.downVote (defaults : UserDefaults D) (messages : List Yak)
    (tag : ℕ) : Option (UserDefaults D × List Yak × List Yak) :=
  MessagesListViewController.vote .down defaults messages tag

/-- A vote handler of the message screen, which changes its own `yak` in place; likes that overflow
trap. -/
def MessageViewController.vote (dir : Direction) (defaults : UserDefaults D) (yak : Yak) :
    Option (UserDefaults D × Yak × List Yak) :=
  let v := SnapYak.vote dir defaults yak
  if IsInt v.yak.likes then some (v.defaults, v.yak, v.passed) else none

/-- `MessageViewController.upVote()`. -/
def MessageViewController.upVote (defaults : UserDefaults D) (yak : Yak) :
    Option (UserDefaults D × Yak × List Yak) :=
  MessageViewController.vote .up defaults yak

/-- `MessageViewController.downVote()`. -/
def MessageViewController.downVote (defaults : UserDefaults D) (yak : Yak) :
    Option (UserDefaults D × Yak × List Yak) :=
  MessageViewController.vote .down defaults yak

/-! ### The two branches -/

section Branches

variable {dir : Direction} {d : UserDefaults D} {y : Yak}

/-- A tap on a yak that is in the list of the direction. -/
theorem vote_of_mem (h : y.imageUrl ∈ d.voted dir) :
    vote dir d y =
      let own := without (d.voted dir) y.imageUrl
      { defaults := d.setVoted dir own
        own := own
        other := d.voted dir.opposite
        yak := y.addLikes (-dir.value)
        undone := true
        passed := [y.addLikes (-dir.value)] } := by
  simp [vote, Voting.undo, Voting.cast, h]

/-- A tap on a yak that is in neither list or in the other one. -/
theorem vote_of_notMem (h : y.imageUrl ∉ d.voted dir) :
    vote dir d y =
      let own := d.voted dir ++ [y.imageUrl]
      let other := without (d.voted dir.opposite) y.imageUrl
      let n := if y.imageUrl ∈ d.voted dir.opposite then dir.value + dir.value else dir.value
      { defaults := (d.setVoted dir own).setVoted dir.opposite other
        own := own
        other := other
        yak := y.addLikes n
        undone := false
        passed := [y.addLikes n] } := by
  by_cases hother : y.imageUrl ∈ d.voted dir.opposite
  · simp [vote, Voting.undo, Voting.cast, Voting.retract, h, hother]
  · simp [vote, Voting.undo, Voting.cast, Voting.retract, h, hother, without_of_notMem hother]

/-- A tap hands over the copy that it has changed, once. -/
theorem passed_vote (dir : Direction) (d : UserDefaults D) (y : Yak) :
    (vote dir d y).passed = [(vote dir d y).yak] := by
  by_cases h : y.imageUrl ∈ d.voted dir
  · rw [vote_of_mem h]
  · rw [vote_of_notMem h]

/-- A tap changes the likes of the copy, and nothing else of it. -/
theorem yak_vote (dir : Direction) (d : UserDefaults D) (y : Yak) :
    (vote dir d y).yak = y.addLikes (d.swing dir y.imageUrl) := by
  by_cases h : y.imageUrl ∈ d.voted dir
  · rw [vote_of_mem h, UserDefaults.swing, if_pos h]
  · rw [vote_of_notMem h, UserDefaults.swing, if_neg h]

/-- A tap keeps the identity and the comments of the copy. -/
theorem imageUrl_comments_vote (dir : Direction) (d : UserDefaults D) (y : Yak) :
    (vote dir d y).yak.imageUrl = y.imageUrl ∧ (vote dir d y).yak.comments = y.comments := by
  rw [yak_vote]
  exact ⟨rfl, rfl⟩

/-- The taps on a row that do not trap. -/
theorem MessagesListViewController.vote_eq_some {messages : List Yak} {tag : ℕ}
    {r : UserDefaults D × List Yak × List Yak} :
    MessagesListViewController.vote dir d messages tag = some r ↔
      ∃ yak, messages[tag]? = some yak ∧ IsInt (SnapYak.vote dir d yak).yak.likes ∧
        ((SnapYak.vote dir d yak).defaults, messages.set tag (SnapYak.vote dir d yak).yak,
          (SnapYak.vote dir d yak).passed) = r := by
  simp only [MessagesListViewController.vote, Option.bind_eq_bind, Option.bind_eq_some_iff,
    Option.ite_none_right_eq_some, Option.some.injEq]

/-- The taps on a message screen that do not trap. -/
theorem MessageViewController.vote_eq_some {r : UserDefaults D × Yak × List Yak} :
    MessageViewController.vote dir d y = some r ↔
      IsInt (SnapYak.vote dir d y).yak.likes ∧
        ((SnapYak.vote dir d y).defaults, (SnapYak.vote dir d y).yak,
          (SnapYak.vote dir d y).passed) = r := by
  simp only [MessageViewController.vote, Option.ite_none_right_eq_some, Option.some.injEq]

end Branches

/-! ### The lists record the toggle -/

/-- The two lists record the ballots `b`: each list has the yaks of its direction, once. -/
structure Represents (d : UserDefaults D) (b : String → Ballot) : Prop where
  mem_voted : ∀ dir u, u ∈ d.voted dir ↔ b u = dir.ballot
  nodup_voted : ∀ dir, (d.voted dir).Nodup

namespace Represents

variable {d : UserDefaults D} {b : String → Ballot}

theorem empty : Represents (.empty : UserDefaults D) fun _ => .none where
  mem_voted dir u := by cases dir <;> simp [Direction.ballot]
  nodup_voted dir := by simp

/-- A yak is in at most one list. -/
theorem disjoint (h : Represents d b) : (d.voted .up).Disjoint (d.voted .down) := by
  intro u hup hdown
  rw [h.mem_voted] at hup hdown
  exact absurd (hup.symm.trans hdown) (by decide)

/-- The ballots can be read off the lists. -/
theorem ballot_eq (h : Represents d b) : d.ballot = b := by
  funext u
  simp only [UserDefaults.ballot, h.mem_voted]
  cases b u <;> rfl

/-- The lists contribute the value of the ballot. -/
theorem contribution_eq (h : Represents d b) (url : String) :
    d.contribution url = (b url).value := by
  simp only [UserDefaults.contribution, h.mem_voted]
  cases b url <;> rfl

/-- The record of the ballots is in the lists, whatever the other defaults are. -/
theorem congr {d' : UserDefaults D} (h : Represents d d.ballot)
    (hvoted : ∀ dir, d'.voted dir = d.voted dir) : Represents d' d'.ballot := by
  have hrep : Represents d' d.ballot :=
    ⟨fun dir u => hvoted dir ▸ h.mem_voted dir u, fun dir => hvoted dir ▸ h.nodup_voted dir⟩
  rwa [hrep.ballot_eq]

/-- Lists that have changed for one yak only, and record its new ballot. -/
theorem update (h : Represents d b) (dir : Direction) {d' : UserDefaults D} {url : String}
    {v : Ballot}
    (hself : (url ∈ d'.voted dir ↔ v = dir.ballot) ∧
      (url ∈ d'.voted dir.opposite ↔ v = dir.opposite.ballot))
    (hother : ∀ u, u ≠ url → (u ∈ d'.voted dir ↔ u ∈ d.voted dir) ∧
      (u ∈ d'.voted dir.opposite ↔ u ∈ d.voted dir.opposite))
    (hnodup : (d'.voted dir).Nodup ∧ (d'.voted dir.opposite).Nodup) :
    Represents d' (Function.update b url v) where
  mem_voted dir' u := by
    by_cases hu : u = url
    · rw [hu, Function.update_self]
      rcases dir.eq_or_eq_opposite dir' with rfl | rfl
      exacts [hself.1, hself.2]
    · rw [Function.update_of_ne hu, ← h.mem_voted dir' u]
      rcases dir.eq_or_eq_opposite dir' with rfl | rfl
      exacts [(hother u hu).1, (hother u hu).2]
  nodup_voted dir' := by
    rcases dir.eq_or_eq_opposite dir' with rfl | rfl
    exacts [hnodup.1, hnodup.2]

/-- A tap adds the difference of the values to the likes. -/
theorem swing_eq (h : Represents d b) (dir : Direction) (url : String) :
    d.swing dir url = ((b url).tap dir).value - (b url).value := by
  simp only [UserDefaults.swing, h.mem_voted]
  by_cases hb : b url = dir.ballot
  · rw [if_pos hb, Ballot.tap, if_pos hb, hb, dir.value_ballot, Ballot.value, zero_sub]
  rw [if_neg hb, Ballot.tap, if_neg hb, dir.value_ballot]
  rcases Ballot.eq_opposite_or_none hb with ho | ho
  · rw [if_pos ho, ho, Direction.value_ballot, dir.value_opposite]
    omega
  · rw [if_neg (by simpa [ho] using dir.opposite.ballot_ne_none.symm), ho]
    exact (sub_zero _).symm

/-- **The toggle.** A tap turns the ballot of the yak, adds the difference of the values to the
likes of the copy, and hands the new copy to `updateYakVote`, once. -/
theorem vote (h : Represents d b) (dir : Direction) (y : Yak) :
    let v := ((b y.imageUrl).tap dir).value - (b y.imageUrl).value
    Represents (vote dir d y).defaults (tapBallots b y.imageUrl dir) ∧
      (SnapYak.vote dir d y).yak = y.addLikes v ∧
      (SnapYak.vote dir d y).passed = [y.addLikes v] := by
  intro v
  rw [passed_vote, yak_vote, h.swing_eq]
  refine ⟨?_, rfl, rfl⟩
  by_cases hb : b y.imageUrl = dir.ballot
  -- The vote is taken back, and the yak was not in the other list.
  · have hown : y.imageUrl ∈ d.voted dir := (h.mem_voted dir _).mpr hb
    have hother : y.imageUrl ∉ d.voted dir.opposite := fun hmem =>
      dir.ballot_ne_opposite (hb.symm.trans ((h.mem_voted _ _).mp hmem))
    have htap : (b y.imageUrl).tap dir = .none := if_pos hb
    rw [vote_of_mem hown, tapBallots, htap]
    refine h.update dir ⟨?_, ?_⟩ (fun u hu => ⟨?_, ?_⟩) ⟨?_, ?_⟩
    · simpa [mem_without] using dir.ballot_ne_none.symm
    · simpa [hother] using dir.opposite.ballot_ne_none.symm
    · simp [mem_without, hu]
    · simp
    · simpa using nodup_without (h.nodup_voted dir) _
    · simpa using h.nodup_voted dir.opposite
  -- A vote is cast, after one of the other direction is taken back.
  · have hown : y.imageUrl ∉ d.voted dir := fun hmem => hb ((h.mem_voted dir _).mp hmem)
    have htap : (b y.imageUrl).tap dir = dir.ballot := if_neg hb
    rw [vote_of_notMem hown, tapBallots, htap]
    refine h.update dir ⟨?_, ?_⟩ (fun u hu => ⟨?_, ?_⟩) ⟨?_, ?_⟩
    · simp
    · simpa [mem_without] using dir.ballot_ne_opposite
    · simp [hu]
    · simp [mem_without, hu]
    · rw [UserDefaults.voted_setVoted_opposite_self, UserDefaults.voted_setVoted_self,
        List.nodup_append_comm]
      exact (h.nodup_voted dir).cons hown
    · simpa using nodup_without (h.nodup_voted dir.opposite) _

end Represents

/-- A row of the list screen and a message screen that hold the same copy do the same, or trap
both. -/
theorem Represents.handlers {d : UserDefaults D} {b : String → Ballot} (h : Represents d b)
    (dir : Direction) {messages : List Yak} {tag : ℕ} {yak : Yak}
    (hyak : messages[tag]? = some yak) :
    let yak' := yak.addLikes (((b yak.imageUrl).tap dir).value - (b yak.imageUrl).value)
    ∃ d', Represents d' (tapBallots b yak.imageUrl dir) ∧
      MessagesListViewController.vote dir d messages tag =
        (if IsInt yak'.likes then some (d', messages.set tag yak', [yak']) else none) ∧
      MessageViewController.vote dir d yak =
        if IsInt yak'.likes then some (d', yak', [yak']) else none := by
  intro yak'
  obtain ⟨hrep, hcopy, hpassed⟩ := h.vote dir yak
  refine ⟨_, hrep, ?_, ?_⟩
  · simp only [MessagesListViewController.vote, hyak, Option.bind_eq_bind, Option.bind_some, hcopy,
      hpassed, yak']
  · simp only [MessageViewController.vote, hcopy, hpassed, yak']

/-! ### Sequences of taps -/

/-- A tap on a vote button, with what the screen holds at that moment. -/
inductive Tap
  | row (dir : Direction) (messages : List Yak) (tag : Fin messages.length)
  | message (dir : Direction) (yak : Yak)

namespace Tap

def dir : Tap → Direction
  | row dir _ _ => dir
  | message dir _ => dir

/-- The copy that the tap acts on. -/
def copy : Tap → Yak
  | row _ messages tag => messages[tag]
  | message _ yak => yak

/-- The defaults after the tap. -/
def run (d : UserDefaults D) : Tap → Option (UserDefaults D)
  | row .up messages tag => (MessagesListViewController.upVote d messages tag).map Prod.fst
  | row .down messages tag => (MessagesListViewController.downVote d messages tag).map Prod.fst
  | message .up yak => (MessageViewController.upVote d yak).map Prod.fst
  | message .down yak => (MessageViewController.downVote d yak).map Prod.fst

/-- The likes that the tap leaves, for these ballots. -/
def likes (b : String → Ballot) (tap : Tap) : ℤ :=
  tap.copy.likes + (((b tap.copy.imageUrl).tap tap.dir).value - (b tap.copy.imageUrl).value)

/-- The ballots after the tap. -/
def ballots (b : String → Ballot) (tap : Tap) : String → Ballot :=
  tapBallots b tap.copy.imageUrl tap.dir

/-- No tap of the sequence leaves likes that are no `Int`. -/
def Fit (b : String → Ballot) : List Tap → Prop
  | [] => True
  | tap :: taps => IsInt (tap.likes b) ∧ Fit (tap.ballots b) taps

end Tap

/-- The taps of a user, on any screens. -/
def tapMachine (D : Type) : Machine (UserDefaults D) Tap where
  step d tap := tap.run d

/-- The ballots after a sequence of taps. -/
def ballotsAfter (taps : List Tap) : String → Ballot := taps.foldl Tap.ballots fun _ => .none

/-- A tap traps when the likes overflow; else it turns the ballot of the copy it acts on. -/
theorem Represents.run_tap {d : UserDefaults D} {b : String → Ballot} (h : Represents d b)
    (tap : Tap) :
    ∃ d', tap.run d = (if IsInt (tap.likes b) then some d' else none) ∧
      Represents d' (tap.ballots b) := by
  cases tap with
  | row dir messages tag =>
    obtain ⟨d', hd', hrow, -⟩ := h.handlers dir (List.getElem?_eq_getElem tag.isLt)
    refine ⟨d', ?_, hd'⟩
    cases dir <;>
      simp only [Tap.run, MessagesListViewController.upVote, MessagesListViewController.downVote,
        hrow, apply_ite (Option.map Prod.fst), Option.map_some, Option.map_none] <;> rfl
  | message dir yak =>
    have hyak : [yak][0]? = some yak := rfl
    obtain ⟨d', hd', -, hmessage⟩ := h.handlers dir hyak
    refine ⟨d', ?_, hd'⟩
    cases dir <;>
      simp only [Tap.run, MessageViewController.upVote, MessageViewController.downVote,
        hmessage, apply_ite (Option.map Prod.fst), Option.map_some, Option.map_none] <;> rfl

/-- A sequence of taps traps when the likes overflow in one of them; else it turns the ballots one
after the other. -/
theorem Represents.run_taps {d : UserDefaults D} {b : String → Ballot} (h : Represents d b)
    (taps : List Tap) :
    (((tapMachine D).run d taps).isSome ↔ Tap.Fit b taps) ∧
      ∀ d', (tapMachine D).run d taps = some d' → Represents d' (taps.foldl Tap.ballots b) := by
  induction taps generalizing d b with
  | nil => exact ⟨iff_of_true rfl trivial, fun d' hd' => Option.some.inj hd' ▸ h⟩
  | cons tap taps ih =>
    obtain ⟨d₁, hd₁, h₁⟩ := h.run_tap tap
    obtain ⟨hiff, hrep⟩ := ih h₁
    have hrun : (tapMachine D).run d (tap :: taps) =
        (tap.run d).bind fun d' => (tapMachine D).run d' taps := rfl
    rw [hrun, hd₁]
    split_ifs with hfit
    · rw [Option.bind_some, hiff]
      exact ⟨⟨fun hrest => ⟨hfit, hrest⟩, fun hrest => hrest.2⟩, hrep⟩
    · exact ⟨iff_of_false (by simp) fun hrest => hfit hrest.1, by simp⟩

/-- **The vote handlers.** A sequence of taps on rows and message screens, whatever copies these
hold, traps exactly when the likes overflow in one of them. After every other sequence a yak is in a
list exactly when its toggle is in the state of the list, and the lists have no duplicates and are
disjoint. Each of the four handlers then adds the difference of the toggle's values to the likes of
the copy it acts on, changes no other row, and passes exactly the updated copy to `updateYakVote`,
and the two of a direction turn the lists in the same way. -/
theorem vote_handlers (taps : List Tap) :
    (((tapMachine D).run .empty taps).isSome ↔ Tap.Fit (fun _ => .none) taps) ∧
    ∀ d, (tapMachine D).run .empty taps = some d →
      (∀ dir u, u ∈ d.voted dir ↔ ballotsAfter taps u = dir.ballot) ∧
      (∀ dir, (d.voted dir).Nodup) ∧ (d.voted .up).Disjoint (d.voted .down) ∧
      ∀ (messages : List Yak) (tag : ℕ) (yak : Yak), messages[tag]? = some yak →
        let b := ballotsAfter taps yak.imageUrl
        let up := yak.addLikes ((b.tap .up).value - b.value)
        let down := yak.addLikes ((b.tap .down).value - b.value)
        ∃ upvoted downvoted : UserDefaults D,
          Represents upvoted (tapBallots (ballotsAfter taps) yak.imageUrl .up) ∧
          Represents downvoted (tapBallots (ballotsAfter taps) yak.imageUrl .down) ∧
          MessagesListViewController.upVote d messages tag =
            (if IsInt up.likes then some (upvoted, messages.set tag up, [up]) else none) ∧
          MessageViewController.upVote d yak =
            (if IsInt up.likes then some (upvoted, up, [up]) else none) ∧
          MessagesListViewController.downVote d messages tag =
            (if IsInt down.likes then some (downvoted, messages.set tag down, [down]) else none) ∧
          MessageViewController.downVote d yak =
            (if IsInt down.likes then some (downvoted, down, [down]) else none) := by
  obtain ⟨hiff, hrep⟩ := Represents.empty.run_taps (D := D) taps
  refine ⟨hiff, fun d hd => ?_⟩
  have h := hrep d hd
  refine ⟨h.mem_voted, h.nodup_voted, h.disjoint, fun messages tag yak hyak => ?_⟩
  obtain ⟨upvoted, hup, hrowUp, hmessageUp⟩ := h.handlers .up hyak
  obtain ⟨downvoted, hdown, hrowDown, hmessageDown⟩ := h.handlers .down hyak
  exact ⟨upvoted, downvoted, hup, hdown, hrowUp, hmessageUp, hrowDown, hmessageDown⟩

/-- An up tap on a row and another on a message screen that holds the copy as it was: the vote is
taken back, and a down tap then takes a like from the copy. -/
theorem vote_handlers_two_taps :
    let yak : Yak := ⟨"user", "a", ⟨0, 0⟩, 0, 4, []⟩
    let other : Yak := ⟨"user", "b", ⟨0, 0⟩, 0, 0, []⟩
    ∃ d downvoted : UserDefaults ℕ, (tapMachine ℕ).run .empty
        [.row .up [other, yak] ⟨1, by decide⟩, .message .up yak] = some d ∧
      "a" ∉ d.voted .up ∧ MessageViewController.downVote d yak =
        some (downvoted, { yak with likes := 3 }, [{ yak with likes := 3 }]) := by
  intro yak other
  obtain ⟨hfit, hrun⟩ := vote_handlers (D := ℕ)
    [.row .up [other, yak] ⟨1, by decide⟩, .message .up yak]
  obtain ⟨d, hd⟩ := Option.isSome_iff_exists.mp (hfit.mpr ⟨by decide, by decide, trivial⟩)
  obtain ⟨hmem, -, -, hhandlers⟩ := hrun d hd
  obtain ⟨_, downvoted, -, -, -, -, -, hdown⟩ := hhandlers [yak] 0 yak rfl
  exact ⟨d, downvoted, hd, fun hup => absurd ((hmem .up "a").mp hup) (by decide), hdown⟩

/-- **A vote can overflow.** The first vote of a device, for a yak with the most likes that an `Int`
holds: the ballot goes from none to up, and instead of adding to the likes both handlers trap. -/
theorem vote_overflows :
    let yak : Yak := ⟨"user", "a", ⟨0, 0⟩, 0, 2 ^ 63 - 1, []⟩
    IsInt yak.likes ∧ MessagesListViewController.upVote (.empty : UserDefaults ℕ) [yak] 0 = none ∧
      MessageViewController.upVote (.empty : UserDefaults ℕ) yak = none ∧
      (tapMachine ℕ).run .empty [.message .up yak] = none := by
  decide +kernel

end SnapYak
