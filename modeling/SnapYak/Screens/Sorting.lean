import SnapYak.Screens.Fetches

/-!
# The order of the list

A fetch that arrives replaces `messages` and sorts them by the selected segment; a change of the
segment sorts them again; and a vote writes one row, wherever sorting has put it.

A row is addressed by its number only, so the table plays no part here: `Listing` is the list screen
without its table, on which votes may come for any row at any time. Every run of the list screen is
one of these (`ListScreen.run_listing`).

## Main definitions

* `Listing` : the list screen without its table.
* `Listing.machine` : its runs, with any results and votes for any rows.
* `Listing.delivered`, `Listing.votes` : the result that arrived last, and the copies voted for
  since.

## Main results

* `Listing.voted_step` : a step keeps track of the copies.
* `Listing.sorted_step` : results and changes of the segment sort the messages.
* `Listing.messages_sorted` : the messages after every run.
* `ListScreen.run_listing` : the list screen with its table.
-/

namespace SnapYak

/-- The list screen without its table, its photos and its outstanding fetches. -/
structure Listing (D : Type) where
  vc : MessagesListViewController D
  defaults : UserDefaults D
  /-- `locManager.location`. -/
  location : Option GeoPoint

namespace Listing

variable {D : Type}

/-- What can happen to the list. -/
inductive Event (D : Type)
  | changeLocation (location : Option GeoPoint)
  | changeDefaults (defaults : UserDefaults D)
  | viewDidAppear
  | pullToRefresh
  /-- A fetch succeeds with any result. -/
  | deliver (endsRefreshing : Bool) (yaks : List Yak)
  | selectSegment (selectedSegmentIndex : ℕ)
  /-- A touch of a vote button with any tag. -/
  | vote (dir : Direction) (tag : ℕ)

/-- The events at which the messages are sorted. -/
def Event.Sorts : Event D → Prop
  | deliver .. | selectSegment _ => True
  | _ => False

/-- The result that arrived last. -/
def delivered (yaks : List Yak) (_ : Listing D) : Event D → List Yak
  | .deliver _ yaks => yaks
  | _ => yaks

/-- The copies that were voted for since a result arrived last, with the voted copies. -/
def votes (votes : List (Yak × Yak)) (s : Listing D) : Event D → List (Yak × Yak)
  | .deliver .. => []
  | .vote dir tag => votes ++ (s.vc.messages[tag]?.map fun yak =>
      (yak, (SnapYak.vote dir s.defaults yak).yak)).toList
  | _ => votes

variable [LinearOrder D] [Zero D] [OfNat D 10000000]

/-- The list when the screen is loaded. -/
def start (selectedSegmentIndex : ℕ) (defaults : UserDefaults D) (location : Option GeoPoint) :
    Listing D :=
  let (vc, defaults, _) :=
    MessagesListViewController.viewDidLoad selectedSegmentIndex defaults location
  ⟨vc, defaults, location⟩

/-- All runs of the list. A vote for a row that does not exist traps. -/
def machine (P : Platform D) : Machine (Listing D) (Event D) where
  step s
    | .changeLocation location => some { s with location := location }
    | .changeDefaults defaults => some { s with defaults := defaults }
    | .viewDidAppear =>
      let (vc, defaults, _) := s.vc.viewDidAppear s.defaults s.location
      some { s with vc := vc, defaults := defaults }
    | .pullToRefresh => some { s with vc := (s.vc.pullToRefresh s.location).1 }
    | .deliver endsRefreshing yaks =>
      some { s with vc :=
        if endsRefreshing then s.vc.refreshYaks P s.location yaks
        else s.vc.showYaks P s.location yaks }
    | .selectSegment selectedSegmentIndex =>
      some { s with vc :=
        { s.vc with selectedSegmentIndex := selectedSegmentIndex }.handleSort P s.location }
    | .vote dir tag => do
      let (defaults, messages, _) ←
        MessagesListViewController.vote dir s.defaults s.vc.messages tag
      some { s with vc := { s.vc with messages := messages }, defaults := defaults }

variable {P : Platform D} {s t : Listing D} {e : Event D}

/-- **A step keeps track of the copies.** -/
theorem voted_step {yaks : List Yak} {vs : List (Yak × Yak)} (hs : Voted yaks vs s.vc.messages)
    (h : (machine P).step s e = some t) :
    Voted (delivered yaks s e) (votes vs s e) t.vc.messages := by
  cases e with
  | changeLocation location =>
    obtain rfl := Option.some.inj h
    exact hs
  | changeDefaults defaults =>
    obtain rfl := Option.some.inj h
    exact hs
  | viewDidAppear =>
    have hmessages : t.vc.messages = s.vc.messages := by
      obtain rfl := Option.some.inj h
      exact MessagesListViewController.messages_viewDidAppear ..
    exact hs.perm (.of_eq hmessages)
  | pullToRefresh =>
    have hmessages : t.vc.messages = s.vc.messages := by
      obtain rfl := Option.some.inj h
      exact MessagesListViewController.messages_checkForNewYaks ..
    exact hs.perm (.of_eq hmessages)
  | deliver endsRefreshing yaks =>
    obtain rfl := Option.some.inj h
    refine .of_perm ?_
    cases endsRefreshing with
    | true => exact MessagesListViewController.perm_handleSort
    | false => exact MessagesListViewController.perm_handleSort
  | selectSegment selectedSegmentIndex =>
    obtain rfl := Option.some.inj h
    exact hs.perm MessagesListViewController.perm_handleSort
  | vote dir tag =>
    simp only [machine, Option.bind_eq_bind, Option.bind_eq_some_iff] at h
    obtain ⟨r, hr, h⟩ := h
    obtain ⟨yak, hyak, -, rfl⟩ := MessagesListViewController.vote_eq_some.mp hr
    obtain rfl := Option.some.inj h
    simp only [delivered, votes, hyak, Option.map_some, Option.toList_some, yak_vote]
    exact hs.set hyak _

/-- **Results and changes of the segment sort the messages.** -/
theorem sorted_step (hsorts : e.Sorts) (h : (machine P).step s e = some t) :
    t.vc.Sorted P t.location := by
  cases e with
  | deliver endsRefreshing yaks =>
    obtain rfl := Option.some.inj h
    cases endsRefreshing with
    | true => exact MessagesListViewController.sorted_handleSort
    | false => exact MessagesListViewController.sorted_handleSort
  | selectSegment selectedSegmentIndex =>
    obtain rfl := Option.some.inj h
    exact MessagesListViewController.sorted_handleSort
  | _ => exact hsorts.elim

/-- **The messages of the list.** After every run, they are the result that arrived last, up to the
order, with the copies voted for since replaced by copies that differ in the likes only. Right after
a result has arrived or the segment has changed, they are in the order of the selected segment. -/
theorem messages_sorted {selectedSegmentIndex : ℕ} {defaults : UserDefaults D}
    {location : Option GeoPoint} {es : List (Event D)}
    (hrun : (machine P).run (start selectedSegmentIndex defaults location) es = some t) :
    Voted ((machine P).history delivered [] (start selectedSegmentIndex defaults location) es)
      ((machine P).history votes [] (start selectedSegmentIndex defaults location) es)
      t.vc.messages ∧
    ∀ e ∈ es.getLast?, e.Sorts →
      (t.vc.selectedSegmentIndex = 0 → ∀ loc ∈ t.location,
        t.vc.messages.Pairwise fun yak1 yak2 =>
          P.distance loc yak1.location ≤ P.distance loc yak2.location) ∧
      (t.vc.selectedSegmentIndex ≠ 0 →
        t.vc.messages.Pairwise fun yak1 yak2 => yak2.likes ≤ yak1.likes) := by
  refine ⟨?_, fun e he hsorts => ?_⟩
  · have hstart : (start selectedSegmentIndex defaults location).vc.messages = [] :=
      MessagesListViewController.messages_viewDidLoad defaults location selectedSegmentIndex
    refine Machine.history_induction₂ (I := fun s yaks vs => Voted yaks vs s.vc.messages)
      (fun hs ht => voted_step hs ht) ?_ hrun
    rw [hstart]
    exact .of_perm (.refl [])
  · obtain ⟨es, rfl⟩ := List.getLast?_eq_some_iff.mp he
    obtain ⟨s, -, hlast⟩ := Machine.run_append_eq_some.mp hrun
    exact sorted_step hsorts (Machine.run_singleton_eq_some.mp hlast)

/-- Two yaks arrive, the farther one first. Both are voted for, the one in row `1` first, and then
the segment is changed. -/
theorem messages_sorted_two_votes :
    let yak : Yak := ⟨"user", "image_0.jpg", ⟨0, 0⟩, 0, 0, []⟩
    let yak' : Yak := ⟨"user", "image_1.jpg", ⟨1, 1⟩, 0, 5, []⟩
    let es : List (Event ℕ) :=
      [.deliver true [yak', yak], .vote .down 1, .vote .up 0, .selectSegment 1]
    ∃ t, (machine Platform.discrete).run (start 0 .empty (some ⟨0, 0⟩)) es = some t ∧
      Voted [yak', yak] [(yak', yak'.addLikes (-1)), (yak, yak.addLikes 1)] t.vc.messages ∧
      t.vc.messages.Pairwise fun yak1 yak2 => yak2.likes ≤ yak1.likes := by
  intro yak yak' es
  have hrun : (machine Platform.discrete).run (start 0 .empty (some ⟨0, 0⟩)) es = some _ := rfl
  refine ⟨_, hrun, (messages_sorted hrun).1, ?_⟩
  exact ((messages_sorted hrun).2 (.selectSegment 1) rfl trivial).2 (by decide)

end Listing

/-! ### The list screen with its table -/

namespace ListScreen

variable {D : Type}

/-- The list screen without its table. -/
def listing (s : ListScreen D) : Listing D := ⟨s.vc, s.defaults, s.location⟩

/-- What an event does to the list. -/
def listingEvents (s : ListScreen D) : Event D → List (Listing.Event D)
  | .changeLocation location => [.changeLocation location]
  | .changeDefaults defaults => [.changeDefaults defaults]
  | .viewDidAppear => [.viewDidAppear]
  | .pullToRefresh => [.pullToRefresh]
  | .deliver n yaks =>
    (s.outstanding[n]?.map fun fetch => .deliver fetch.endsRefreshing yaks).toList
  | .selectSegment selectedSegmentIndex => [.selectSegment selectedSegmentIndex]
  | .vote dir k => ((s.touched k).map fun cell => .vote dir cell.tag).toList
  | _ => []

variable {s t : ListScreen D}

theorem listing_layout {rows : List ℕ} (h : s.layout rows = some t) : t.listing = s.listing := by
  simp only [layout] at h
  split_ifs at h
  all_goals
    simp only [Option.bind_eq_bind, Option.bind_eq_some_iff] at h
    obtain ⟨cells, -, h⟩ := h
    obtain rfl := Option.some.inj h
    rfl

theorem listing_didSelectRow {row : ℕ} (h : s.didSelectRow row = some t) :
    t.listing = s.listing := by
  simp only [didSelectRow, Option.bind_eq_bind, Option.bind_eq_some_iff] at h
  obtain ⟨data, -, h⟩ := h
  split at h
  all_goals
    obtain rfl := Option.some.inj h
    rfl

variable [LinearOrder D] [Zero D] [OfNat D 10000000] {P : Platform D}
  {contents : ImageSource → Data}

theorem listing_vote {dir : Direction} {tag : ℕ} (h : s.vote dir tag = some t) :
    (Listing.machine P).step s.listing (.vote dir tag) = some t.listing := by
  simp only [vote, Option.bind_eq_bind, Option.bind_eq_some_iff] at h
  obtain ⟨⟨defaults, messages, passed⟩, hrow, tableView, -, h⟩ := h
  obtain rfl := Option.some.inj h
  exact Option.bind_eq_some_iff.mpr ⟨_, hrow, rfl⟩

theorem listing_complete (s : ListScreen D) (fetch : ListFetch D) (yaks : List Yak) :
    (Listing.machine P).step s.listing (.deliver fetch.endsRefreshing yaks) =
      some (s.complete P fetch yaks).listing := by
  have hdefaults : (s.complete P fetch yaks).defaults = s.defaults := by
    simp only [complete]
    split_ifs <;> rfl
  have hlocation : (s.complete P fetch yaks).location = s.location := by
    simp only [complete]
    split_ifs <;> rfl
  simp only [listing, vc_complete, hdefaults, hlocation]
  rfl

/-- A step of the list screen is at most one step of the list. -/
theorem listing_step {e : Event D} (h : (machine P contents).step s e = some t) :
    (Listing.machine P).run s.listing (s.listingEvents e) = some t.listing := by
  cases e with
  | changeLocation _ | changeDefaults _ | viewDidAppear | pullToRefresh | selectSegment _ =>
    obtain rfl := Option.some.inj h
    exact Machine.run_singleton_eq_some.mpr rfl
  | didUpdateLocations location =>
    obtain rfl := Option.some.inj h
    rfl
  | deliver n yaks =>
    obtain ⟨fetch, hfetch, rfl⟩ := step_deliver h
    simp only [listingEvents, hfetch, Option.map_some, Option.toList_some]
    exact Machine.run_singleton_eq_some.mpr
      (listing_complete { s with outstanding := s.outstanding.eraseIdx n } fetch yaks)
  | layout rows => exact congrArg some (listing_layout h).symm
  | vote dir k =>
    obtain ⟨cell, hcell, h⟩ := step_vote h
    simp only [listingEvents, hcell, Option.map_some, Option.toList_some]
    exact Machine.run_singleton_eq_some.mpr (listing_vote h)
  | selectRow k =>
    obtain ⟨cell, -, h⟩ := step_selectRow h
    exact congrArg some (listing_didSelectRow h).symm
  | fail n =>
    obtain ⟨fetch, -, rfl⟩ := step_fail h
    rfl
  | deliverImage n =>
    obtain ⟨fetch, -, rfl⟩ := step_deliverImage h
    rfl
  | failImage n =>
    obtain rfl := step_failImage h
    rfl

/-- An event that the list does not see leaves it alone. -/
theorem listing_eq_of_nil {e : Event D} (h : (machine P contents).step s e = some t)
    (hnil : s.listingEvents e = []) : t.listing = s.listing := by
  have hrun := listing_step h
  rw [hnil] at hrun
  exact (Option.some.inj hrun).symm

/-- **Every run of the list screen is one of the list.** -/
theorem run_listing {es : List (Event D)} (hrun : (machine P contents).run s es = some t) :
    (Listing.machine P).run s.listing ((machine P contents).log listingEvents s es) =
      some t.listing :=
  Machine.run_log listing listing_step hrun

end ListScreen

end SnapYak
