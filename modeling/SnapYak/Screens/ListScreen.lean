import SnapYak.Machine.History
import SnapYak.Screens.MessagesList
import SnapYak.Store.Storage

/-!
# The list screen with its table

The list screen shows its messages in a table, and the user acts on rows: the vote buttons of a cell
carry the number of its row as their `tag`, and a selected row is known by its index path. Between
the moment a cell is filled and the moment it is touched, fetches replace `messages` and the
segmented control sorts them again; and the image of a selected yak arrives long after its row has
moved.

Every handler that assigns `messages` calls `reloadData`, and every closure captures the yak itself,
so a touch acts on the yak that is shown (`ListScreen.row_actions`).

The table view is modelled as far as the handlers rely on it: after `reloadData` it reads all
visible cells again before it delivers a touch. A photo has the same bytes whenever it is fetched.
Each message screen has a number, by which the log of the selections refers to it.

## Main definitions

* `MessageCell`, `TableView` : the cells on the screen, as they were filled.
* `ListScreen` : the list screen with its table, its cache and its outstanding fetches.
* `ListScreen.machine` : its runs, with any results of its fetches.
* `ListScreen.Shown` : the cells show the rows of `messages`.
* `ListScreen.Imaged` : cached photos, photos handed over, and those that are being fetched.

## Main results

* `ListScreen.Shown.step`, `ListScreen.Imaged.step` : the two invariants.
* `ListScreen.row_actions` : touches act on the yaks that are shown.
-/

namespace SnapYak

/-! ### The table view -/

/-- A cell on the screen. -/
structure MessageCell where
  /-- The row of its index path. -/
  row : ℕ
  /-- The `tag` of its vote buttons. -/
  tag : ℕ
  /-- The yak that its labels were filled from. -/
  yak : Yak
  votesLabel : ℤ

/-- The table view. -/
structure TableView where
  /-- The number of rows when it was asked for last. -/
  numberOfRows : ℕ
  cells : List MessageCell
  /-- Whether `reloadData` was called since the cells were read. -/
  needsReload : Bool

namespace TableView

/-- The table view before it is laid out. -/
def initial : TableView := ⟨0, [], true⟩

/-- `reloadData()`. -/
def reloadData (tableView : TableView) : TableView := { tableView with needsReload := true }

/-- `cellForRow(at:)`. -/
def cellForRow (tableView : TableView) (row : ℕ) : Option MessageCell :=
  tableView.cells.find? fun cell => cell.row = row

/-- The label of the cell at a row is set; a row without a cell traps in the forced cast. -/
def setVotesLabel (tableView : TableView) (row : ℕ) (likes : ℤ) : Option TableView := do
  let _ ← tableView.cellForRow row
  some { tableView with cells := tableView.cells.map fun cell =>
    if cell.row = row then { cell with votesLabel := likes } else cell }

/-- The cells show the rows of `messages`. -/
structure Shows (tableView : TableView) (messages : List Yak) : Prop where
  numberOfRows : tableView.numberOfRows = messages.length
  tag : ∀ cell ∈ tableView.cells, cell.tag = cell.row
  yak : ∀ cell ∈ tableView.cells, messages[cell.row]? = some cell.yak
  votesLabel : ∀ cell ∈ tableView.cells, cell.votesLabel = cell.yak.likes

end TableView

/-- What `mapM` returns was computed from the elements of the list. -/
theorem mem_of_mapM_eq_some {α β : Type} {f : α → Option β} {l : List α} {l' : List β}
    (h : l.mapM f = some l') : ∀ b ∈ l', ∃ a ∈ l, f a = some b := by
  induction l generalizing l' with
  | nil =>
    obtain rfl : l' = [] := by simpa using h.symm
    simp
  | cons a l ih =>
    simp only [List.mapM_cons, Option.bind_eq_bind, Option.bind_eq_some_iff] at h
    obtain ⟨b, hb, l'', hl'', h⟩ := h
    obtain rfl := Option.some.inj h
    intro b' hb'
    rcases List.mem_cons.mp hb' with rfl | hb'
    · exact ⟨a, List.mem_cons_self, hb⟩
    · obtain ⟨a', ha', hfa'⟩ := ih hl'' b' hb'
      exact ⟨a', List.mem_cons_of_mem _ ha', hfa'⟩

/-- `mapM` returns if the function does on every element. -/
theorem exists_mapM_eq_some {α β : Type} {f : α → Option β} {l : List α}
    (h : ∀ a ∈ l, ∃ b, f a = some b) : ∃ l', l.mapM f = some l' := by
  induction l with
  | nil => exact ⟨[], rfl⟩
  | cons a l ih =>
    obtain ⟨b, hb⟩ := h a List.mem_cons_self
    obtain ⟨l', hl'⟩ := ih fun a' ha' => h a' (List.mem_cons_of_mem _ ha')
    exact ⟨b :: l', by simp [hb, hl']⟩

/-! ### States and handlers -/

/-- A message screen, with the number of its creation. -/
structure MessageViewController where
  number : ℕ
  yak : Option Yak
  cachedImage : Option Data

/-- An outstanding `fetchYaks` of the list screen. -/
structure ListFetch (D : Type) where
  currentLocation : GeoPoint
  radius : D
  /-- Whether the completion is that of `checkForNewYaks`, which ends the refreshing. -/
  endsRefreshing : Bool

/-- An outstanding `fetchImage` of the list screen, with what its completion has captured. -/
structure ImageFetch where
  source : ImageSource
  data : Yak
  newVC : MessageViewController

/-- The list screen. -/
structure ListScreen (D : Type) where
  vc : MessagesListViewController D
  defaults : UserDefaults D
  /-- `locManager.location`. -/
  location : Option GeoPoint
  tableView : TableView
  imageCache : String → Option Data
  outstanding : List (ListFetch D)
  images : List ImageFetch
  /-- The number of message screens that were created. -/
  created : ℕ
  /-- The message screens that were handed to `present`. It shows none while another one is
  presented. -/
  presented : List MessageViewController
  /-- The records handed to `updateYakVote`. -/
  updates : List Yak

namespace ListScreen

variable {D : Type}

/-- The `messages` of the screen. -/
abbrev messages (s : ListScreen D) : List Yak := s.vc.messages

/-- `self.tableView.reloadData()`. -/
def reloadData (s : ListScreen D) : ListScreen D := { s with tableView := s.tableView.reloadData }

/-- A fetch is issued, if there is one. -/
def issue (s : ListScreen D) (endsRefreshing : Bool) (fetch : Option (GeoPoint × D)) :
    ListScreen D :=
  { s with outstanding := s.outstanding ++
      fetch.toList.map fun p => ⟨p.1, p.2, endsRefreshing⟩ }

/-- `tableView(_:cellForRowAt:)`. -/
def cellForRowAt (s : ListScreen D) (row : ℕ) : Option MessageCell := do
  let yak1 ← s.messages[row]?
  some { row := row, tag := row, yak := yak1, votesLabel := yak1.likes }

/-- The table view lays out the given rows. After `reloadData` it asks for the number of rows and
for all cells, otherwise only for the cells that it does not have. -/
def layout (s : ListScreen D) (rows : List ℕ) : Option (ListScreen D) :=
  let tableView :=
    if s.tableView.needsReload then ⟨s.messages.length, [], false⟩ else s.tableView
  if ∀ row ∈ rows, row < tableView.numberOfRows then do
    let cells ← rows.mapM fun row => (tableView.cellForRow row).or (s.cellForRowAt row)
    some { s with tableView := { tableView with cells := cells } }
  else none

/-- `upVote(sender:)` and `downVote(sender:)`, for a button with the given tag. -/
def vote (dir : Direction) (s : ListScreen D) (tag : ℕ) : Option (ListScreen D) := do
  let (defaults, messages, passed) ←
    MessagesListViewController.vote dir s.defaults s.messages tag
  let tableView ← passed.foldlM
    (fun (tableView : TableView) yak => tableView.setVotesLabel tag yak.likes) s.tableView
  some (reloadData { s with
    vc := { s.vc with messages := messages }
    defaults := defaults
    tableView := tableView
    updates := s.updates ++ passed })

/-- `tableView(_:didSelectRowAt:)`. -/
def didSelectRow (s : ListScreen D) (row : ℕ) : Option (ListScreen D) := do
  let data ← s.messages[row]?
  let newVC : MessageViewController := ⟨s.created, some data, none⟩
  let s := { s with created := s.created + 1 }
  match s.imageCache data.imageUrl with
  | some image =>
    some { s with presented := s.presented ++ [{ newVC with cachedImage := some image }] }
  | none => some { s with images := s.images ++ [⟨fetchImage data.imageUrl, data, newVC⟩] }

/-- The completion of `fetchImage`. -/
def imageFetched (s : ListScreen D) (fetch : ImageFetch) (imageData : Data) : ListScreen D :=
  { s with
    imageCache := Function.update s.imageCache fetch.data.imageUrl (some imageData)
    presented := s.presented ++ [{ fetch.newVC with cachedImage := some imageData }] }

section Order

variable [LinearOrder D]

/-- `handleSort()`. -/
def handleSort (P : Platform D) (s : ListScreen D) : ListScreen D :=
  reloadData { s with vc := s.vc.handleSort P s.location }

/-- The completion of a fetch. -/
def complete (P : Platform D) (s : ListScreen D) (fetch : ListFetch D) (yaks : List Yak) :
    ListScreen D :=
  let s := { s with vc := { s.vc with messages := yaks } }
  let s := (s.handleSort P).reloadData
  if fetch.endsRefreshing then { s with vc := { s.vc with isRefreshing := false } } else s

/-- The completions of the screen with its table are those of the screen. -/
theorem vc_complete (P : Platform D) (s : ListScreen D) (fetch : ListFetch D) (yaks : List Yak) :
    (s.complete P fetch yaks).vc =
      if fetch.endsRefreshing then s.vc.refreshYaks P s.location yaks
      else s.vc.showYaks P s.location yaks := by
  simp only [complete]
  split_ifs <;> rfl

end Order

/-! ### The cells show the rows -/

variable {s t : ListScreen D}

/-- Once the cells are read, they show the rows of `messages`. -/
def Shown (s : ListScreen D) : Prop :=
  s.tableView.needsReload = false → s.tableView.Shows s.messages

theorem shown_of_needsReload (h : s.tableView.needsReload = true) : s.Shown :=
  fun h' => absurd (h.symm.trans h') (by simp)

theorem Shown.congr (hs : s.Shown) (hmessages : t.messages = s.messages)
    (htable : t.tableView = s.tableView) : t.Shown := by
  rw [Shown, hmessages, htable]
  exact hs

/-- The table that a layout starts from. -/
theorem Shown.shows (hs : s.Shown) :
    (if s.tableView.needsReload then ⟨s.messages.length, [], false⟩ else s.tableView :
      TableView).Shows s.messages := by
  split_ifs with h
  · exact ⟨rfl, by simp, by simp, by simp⟩
  · exact hs (by simpa using h)

/-- A cell that is kept or filled shows its row. -/
theorem shows_cell {tableView : TableView} (htable : tableView.Shows s.messages) {row : ℕ}
    {cell : MessageCell} (h : (tableView.cellForRow row).or (s.cellForRowAt row) = some cell) :
    cell.tag = cell.row ∧ s.messages[cell.row]? = some cell.yak ∧
      cell.votesLabel = cell.yak.likes := by
  rcases Option.or_eq_some_iff.mp h with h | ⟨-, h⟩
  · have hmem : cell ∈ tableView.cells := List.mem_of_find?_eq_some h
    exact ⟨htable.tag cell hmem, htable.yak cell hmem, htable.votesLabel cell hmem⟩
  · simp only [cellForRowAt, Option.bind_eq_bind, Option.bind_eq_some_iff] at h
    obtain ⟨yak1, hyak1, h⟩ := h
    obtain rfl := Option.some.inj h
    exact ⟨rfl, hyak1, rfl⟩

/-- **A layout shows the rows.** -/
theorem Shown.layout (hs : s.Shown) {rows : List ℕ} (h : s.layout rows = some t) : t.Shown := by
  have htable := hs.shows
  simp only [ListScreen.layout] at h
  generalize (if s.tableView.needsReload then ⟨s.messages.length, [], false⟩ else s.tableView :
    TableView) = tableView at h htable
  split_ifs at h
  simp only [Option.bind_eq_bind, Option.bind_eq_some_iff] at h
  obtain ⟨cells, hcells, h⟩ := h
  obtain rfl := Option.some.inj h
  have hall := mem_of_mapM_eq_some hcells
  intro _
  refine ⟨htable.numberOfRows, fun cell hmem => ?_, fun cell hmem => ?_, fun cell hmem => ?_⟩
  all_goals
    obtain ⟨row, -, hrow⟩ := hall cell hmem
    have hcell := shows_cell htable hrow
  exacts [hcell.1, hcell.2.1, hcell.2.2]

/-- The table view can lay out all rows that it knows of: no subscript is out of range. -/
theorem Shown.exists_layout (hs : s.Shown) {rows : List ℕ}
    (hrows : ∀ row ∈ rows, row < s.messages.length) : ∃ t, s.layout rows = some t := by
  have htable := hs.shows
  simp only [ListScreen.layout]
  generalize (if s.tableView.needsReload then ⟨s.messages.length, [], false⟩ else s.tableView :
    TableView) = tableView at htable ⊢
  rw [if_pos (htable.numberOfRows ▸ hrows)]
  obtain ⟨cells, hcells⟩ : ∃ cells, rows.mapM
      (fun row => (tableView.cellForRow row).or (s.cellForRowAt row)) = some cells := by
    refine exists_mapM_eq_some fun row hrow => ?_
    cases tableView.cellForRow row with
    | some cell => exact ⟨cell, rfl⟩
    | none => exact ⟨_, by simp only [cellForRowAt, List.getElem?_eq_getElem (hrows row hrow)]; rfl⟩
  exact ⟨_, by rw [hcells]; rfl⟩

/-! ### The photos -/

/-- What the photos of the screen consist of. -/
def photos (s : ListScreen D) :
    (String → Option Data) × List ImageFetch × ℕ × List MessageViewController :=
  (s.imageCache, s.images, s.created, s.presented)

variable {contents : ImageSource → Data} {selections : List Yak}

/-- A message screen has the yak of its selection, and the photo of this yak. -/
def Presents (contents : ImageSource → Data) (selections : List Yak)
    (newVC : MessageViewController) : Prop :=
  ∃ yak, selections[newVC.number]? = some yak ∧ newVC.yak = some yak ∧
    newVC.cachedImage = some (contents (fetchImage yak.imageUrl))

/-- The photos of the screen after the given selections. -/
structure Imaged (contents : ImageSource → Data) (selections : List Yak) (s : ListScreen D) :
    Prop where
  created : s.created = selections.length
  cache : ∀ url image, s.imageCache url = some image → image = contents (fetchImage url)
  images : ∀ fetch ∈ s.images, fetch.source = fetchImage fetch.data.imageUrl ∧
    fetch.newVC.yak = some fetch.data ∧ selections[fetch.newVC.number]? = some fetch.data
  presented : ∀ newVC ∈ s.presented, Presents contents selections newVC

theorem Imaged.congr (hs : s.Imaged contents selections) (h : t.photos = s.photos) :
    t.Imaged contents selections := by
  simp only [photos, Prod.mk.injEq] at h
  obtain ⟨hcache, himages, hcreated, hpresented⟩ := h
  exact ⟨hcreated ▸ hs.created, hcache ▸ hs.cache, himages ▸ hs.images,
    hpresented ▸ hs.presented⟩

/-- A selection stays where it is in the log. -/
theorem getElem?_selections {number : ℕ} {yak data : Yak} (h : selections[number]? = some yak) :
    (selections ++ [data])[number]? = some yak := by
  rw [List.getElem?_append_left (List.getElem?_eq_some_iff.mp h).1]
  exact h

theorem Presents.append {newVC : MessageViewController} {data : Yak}
    (h : Presents contents selections newVC) :
    Presents contents (selections ++ [data]) newVC := by
  obtain ⟨yak, hyak, hvc⟩ := h
  exact ⟨yak, getElem?_selections hyak, hvc⟩

/-- A selection hands over the photo of its yak from the cache, or fetches it. -/
theorem Imaged.didSelectRow (hs : s.Imaged contents selections) {row : ℕ} {data : Yak}
    (hdata : s.messages[row]? = some data) (ht : s.didSelectRow row = some t) :
    t.Imaged contents (selections ++ [data]) := by
  have hnumber : (selections ++ [data])[s.created]? = some data := by
    rw [hs.created, List.getElem?_concat_length]
  have hcreated : s.created + 1 = (selections ++ [data]).length := by
    rw [hs.created, List.length_append, List.length_singleton]
  have himages : ∀ fetch ∈ s.images, fetch.source = fetchImage fetch.data.imageUrl ∧
      fetch.newVC.yak = some fetch.data ∧
        (selections ++ [data])[fetch.newVC.number]? = some fetch.data := by
    intro fetch hfetch
    obtain ⟨hsource, hyak, hselected⟩ := hs.images fetch hfetch
    exact ⟨hsource, hyak, getElem?_selections hselected⟩
  simp only [ListScreen.didSelectRow, hdata, Option.bind_eq_bind, Option.bind_some] at ht
  cases hcache : s.imageCache data.imageUrl with
  | some image =>
    rw [hcache] at ht
    obtain rfl := Option.some.inj ht
    refine ⟨hcreated, hs.cache, himages, fun newVC hmem => ?_⟩
    rcases List.mem_append.mp hmem with hmem | hmem
    · exact (hs.presented newVC hmem).append
    · obtain rfl := List.mem_singleton.mp hmem
      exact ⟨data, hnumber, rfl, congrArg some (hs.cache _ _ hcache)⟩
  | none =>
    rw [hcache] at ht
    obtain rfl := Option.some.inj ht
    refine ⟨hcreated, hs.cache, fun fetch hmem => ?_, fun newVC hmem =>
      (hs.presented newVC hmem).append⟩
    rcases List.mem_append.mp hmem with hmem | hmem
    · exact himages fetch hmem
    · obtain rfl := List.mem_singleton.mp hmem
      exact ⟨rfl, rfl, hnumber⟩

theorem Imaged.eraseIdx (hs : s.Imaged contents selections) (n : ℕ) :
    Imaged contents selections { s with images := s.images.eraseIdx n } :=
  ⟨hs.created, hs.cache, fun fetch hmem => hs.images fetch (List.mem_of_mem_eraseIdx hmem),
    hs.presented⟩

/-- A photo that arrives is cached under its own name, and handed over with its own yak. -/
theorem Imaged.imageFetched (hs : s.Imaged contents selections) {fetch : ImageFetch}
    (hsource : fetch.source = fetchImage fetch.data.imageUrl)
    (hyak : fetch.newVC.yak = some fetch.data)
    (hselected : selections[fetch.newVC.number]? = some fetch.data) :
    (s.imageFetched fetch (contents fetch.source)).Imaged contents selections where
  created := hs.created
  images := hs.images
  cache url image h := by
    simp only [ListScreen.imageFetched] at h
    by_cases hurl : url = fetch.data.imageUrl
    · rw [hurl, Function.update_self] at h
      rw [hurl, ← hsource]
      exact (Option.some.inj h).symm
    · rw [Function.update_of_ne hurl] at h
      exact hs.cache url image h
  presented newVC hmem := by
    rcases List.mem_append.mp hmem with hmem | hmem
    · exact hs.presented newVC hmem
    · obtain rfl := List.mem_singleton.mp hmem
      exact ⟨fetch.data, hselected, hyak, by rw [hsource]⟩

/-! ### The handlers and the photos -/

theorem photos_vote {dir : Direction} {tag : ℕ} (h : s.vote dir tag = some t) :
    t.tableView.needsReload = true ∧ t.photos = s.photos ∧ t.outstanding = s.outstanding := by
  simp only [vote, Option.bind_eq_bind, Option.bind_eq_some_iff] at h
  obtain ⟨⟨defaults, messages, passed⟩, -, tableView, -, h⟩ := h
  obtain rfl := Option.some.inj h
  exact ⟨rfl, rfl, rfl⟩

theorem photos_layout {rows : List ℕ} (h : s.layout rows = some t) :
    t.messages = s.messages ∧ t.photos = s.photos ∧ t.outstanding = s.outstanding := by
  simp only [layout] at h
  split_ifs at h
  all_goals
    simp only [Option.bind_eq_bind, Option.bind_eq_some_iff] at h
    obtain ⟨cells, -, h⟩ := h
    obtain rfl := Option.some.inj h
    exact ⟨rfl, rfl, rfl⟩

theorem photos_complete [LinearOrder D] (P : Platform D) (s : ListScreen D) (fetch : ListFetch D)
    (yaks : List Yak) : (s.complete P fetch yaks).tableView.needsReload = true ∧
      (s.complete P fetch yaks).photos = s.photos ∧
      (s.complete P fetch yaks).outstanding = s.outstanding := by
  simp only [complete]
  split_ifs <;> exact ⟨rfl, rfl, rfl⟩

/-- A fetch delivers its result, in some order. -/
theorem perm_complete [LinearOrder D] (P : Platform D) (s : ListScreen D) (fetch : ListFetch D)
    (yaks : List Yak) : (s.complete P fetch yaks).messages.Perm yaks := by
  rw [messages, vc_complete]
  split_ifs
  · exact MessagesListViewController.perm_handleSort
  · exact MessagesListViewController.perm_handleSort

/-- A vote writes one row, and hands the copy that it has written to `updateYakVote`. -/
theorem messages_vote {dir : Direction} {tag : ℕ} {yak : Yak} (hyak : s.messages[tag]? = some yak)
    (h : s.vote dir tag = some t) :
    t.messages = s.messages.set tag (SnapYak.vote dir s.defaults yak).yak ∧
      t.updates = s.updates ++ [(SnapYak.vote dir s.defaults yak).yak] ∧
      t.defaults = (SnapYak.vote dir s.defaults yak).defaults := by
  simp only [vote, Option.bind_eq_bind, Option.bind_eq_some_iff] at h
  obtain ⟨r, hr, tableView, -, h⟩ := h
  obtain ⟨_, hyak', -, rfl⟩ := MessagesListViewController.vote_eq_some.mp hr
  obtain rfl := Option.some.inj (hyak.symm.trans hyak')
  obtain rfl := Option.some.inj h
  exact ⟨rfl, congrArg (s.updates ++ ·) (passed_vote ..), rfl⟩

/-- A selection leaves the table and the fetches alone. -/
theorem table_didSelectRow {row : ℕ} (h : s.didSelectRow row = some t) :
    t.messages = s.messages ∧ t.tableView = s.tableView ∧ t.outstanding = s.outstanding := by
  simp only [didSelectRow, Option.bind_eq_bind, Option.bind_eq_some_iff] at h
  obtain ⟨data, -, h⟩ := h
  split at h
  all_goals
    obtain rfl := Option.some.inj h
    exact ⟨rfl, rfl, rfl⟩

/-- A row that exists can be selected. -/
theorem exists_didSelectRow {row : ℕ} {data : Yak} (h : s.messages[row]? = some data) :
    ∃ t, s.didSelectRow row = some t := by
  simp only [didSelectRow, h, Option.bind_eq_bind, Option.bind_some]
  split
  · exact ⟨_, rfl⟩
  · exact ⟨_, rfl⟩

/-- A vote for a row that is shown does not trap, unless the likes overflow. -/
theorem isSome_vote_iff (hs : s.Shown) (hreload : s.tableView.needsReload = false)
    {cell : MessageCell} (hcell : cell ∈ s.tableView.cells) (dir : Direction) :
    (s.vote dir cell.tag).isSome ↔ IsInt (SnapYak.vote dir s.defaults cell.yak).yak.likes := by
  have hshows := hs hreload
  have hyak : s.messages[cell.tag]? = some cell.yak := hshows.tag cell hcell ▸ hshows.yak cell hcell
  constructor
  · intro h
    obtain ⟨t, ht⟩ := Option.isSome_iff_exists.mp h
    obtain ⟨r, hr, -⟩ := Option.bind_eq_some_iff.mp ht
    obtain ⟨_, hyak', hint, -⟩ := MessagesListViewController.vote_eq_some.mp hr
    obtain rfl := Option.some.inj (hyak.symm.trans hyak')
    exact hint
  · intro hint
    obtain ⟨cell', hcell'⟩ : ∃ cell', s.tableView.cellForRow cell.tag = some cell' := by
      refine Option.isSome_iff_exists.mp (List.find?_isSome.mpr ⟨cell, hcell, ?_⟩)
      simpa using (hshows.tag cell hcell).symm
    simp only [vote, MessagesListViewController.vote_eq_some.mpr ⟨_, hyak, hint, rfl⟩, passed_vote,
      Option.bind_eq_bind, Option.bind_some, List.foldlM_cons, List.foldlM_nil,
      TableView.setVotesLabel, hcell']
    rfl

/-! ### Runs -/

/-- What can happen to the list screen. -/
inductive Event (D : Type)
  | changeLocation (location : Option GeoPoint)
  /-- Another screen writes the defaults. -/
  | changeDefaults (defaults : UserDefaults D)
  | viewDidAppear
  | pullToRefresh
  | didUpdateLocations (location : GeoPoint)
  /-- An outstanding fetch succeeds with any result. -/
  | deliver (n : ℕ) (yaks : List Yak)
  | fail (n : ℕ)
  | selectSegment (selectedSegmentIndex : ℕ)
  /-- The table view shows the given rows. -/
  | layout (rows : List ℕ)
  /-- A touch of a vote button of a cell on the screen. -/
  | vote (dir : Direction) (k : ℕ)
  /-- A touch of a cell on the screen. -/
  | selectRow (k : ℕ)
  | deliverImage (n : ℕ)
  | failImage (n : ℕ)

/-- The cell that a touch hits. No touch is delivered before the cells are read again. -/
def touched (s : ListScreen D) (k : ℕ) : Option MessageCell :=
  if s.tableView.needsReload then none else s.tableView.cells[k]?

/-- A touched cell shows its row, which is the tag of its buttons. -/
theorem Shown.touched (hs : s.Shown) {k : ℕ} {cell : MessageCell}
    (h : s.touched k = some cell) :
    s.tableView.needsReload = false ∧ cell ∈ s.tableView.cells ∧ cell.tag = cell.row ∧
      s.messages[cell.row]? = some cell.yak := by
  simp only [ListScreen.touched] at h
  split_ifs at h with hreload
  replace hreload : s.tableView.needsReload = false := by simpa using hreload
  have hmem : cell ∈ s.tableView.cells := List.mem_of_getElem? h
  exact ⟨hreload, hmem, (hs hreload).tag cell hmem, (hs hreload).yak cell hmem⟩

/-- The yaks shown in the rows that the user selects. -/
def selection (s : ListScreen D) : Event D → List Yak
  | .selectRow k => ((s.touched k).map MessageCell.yak).toList
  | _ => []

variable [LinearOrder D] [Zero D] [OfNat D 10000000]

/-- The screen when it is loaded. -/
def start (selectedSegmentIndex : ℕ) (defaults : UserDefaults D) (location : Option GeoPoint) :
    ListScreen D :=
  let (vc, defaults, fetch) :=
    MessagesListViewController.viewDidLoad selectedSegmentIndex defaults location
  issue ⟨vc, defaults, location, .initial, fun _ => none, [], [], 0, [], []⟩ true fetch

/-- All runs of the list screen, `contents` being the bytes of the photos. -/
def machine (P : Platform D) (contents : ImageSource → Data) :
    Machine (ListScreen D) (Event D) where
  step s
    | .changeLocation location => some { s with location := location }
    | .changeDefaults defaults => some { s with defaults := defaults }
    | .viewDidAppear =>
      let (vc, defaults, fetch) := s.vc.viewDidAppear s.defaults s.location
      some ({ s with vc := vc, defaults := defaults }.issue true fetch)
    | .pullToRefresh =>
      let (vc, fetch) := s.vc.pullToRefresh s.location
      some ({ s with vc := vc }.issue true fetch)
    | .didUpdateLocations location =>
      some (s.issue false (some (s.vc.didUpdateLocations location)))
    | .deliver n yaks => do
      let fetch ← s.outstanding[n]?
      some ({ s with outstanding := s.outstanding.eraseIdx n }.complete P fetch yaks)
    | .fail n => do
      let _ ← s.outstanding[n]?
      some { s with outstanding := s.outstanding.eraseIdx n }
    | .selectSegment selectedSegmentIndex =>
      some ({ s with
        vc := { s.vc with selectedSegmentIndex := selectedSegmentIndex } }.handleSort P)
    | .layout rows => s.layout rows
    | .vote dir k => do
      let cell ← s.touched k
      s.vote dir cell.tag
    | .selectRow k => do
      let cell ← s.touched k
      s.didSelectRow cell.row
    | .deliverImage n => do
      let fetch ← s.images[n]?
      some ({ s with images := s.images.eraseIdx n }.imageFetched fetch (contents fetch.source))
    | .failImage n => do
      let _ ← s.images[n]?
      some { s with images := s.images.eraseIdx n }

/-! ### What a step can do -/

section Step

variable {P : Platform D} {n k : ℕ}

theorem step_deliver {yaks : List Yak}
    (h : (machine P contents).step s (.deliver n yaks) = some t) :
    ∃ fetch, s.outstanding[n]? = some fetch ∧
      t = { s with outstanding := s.outstanding.eraseIdx n }.complete P fetch yaks := by
  obtain ⟨fetch, hfetch, h⟩ := Option.bind_eq_some_iff.mp h
  exact ⟨fetch, hfetch, (Option.some.inj h).symm⟩

theorem step_fail (h : (machine P contents).step s (.fail n) = some t) :
    ∃ fetch, s.outstanding[n]? = some fetch ∧
      t = { s with outstanding := s.outstanding.eraseIdx n } := by
  obtain ⟨fetch, hfetch, h⟩ := Option.bind_eq_some_iff.mp h
  exact ⟨fetch, hfetch, (Option.some.inj h).symm⟩

theorem step_vote {dir : Direction} (h : (machine P contents).step s (.vote dir k) = some t) :
    ∃ cell, s.touched k = some cell ∧ s.vote dir cell.tag = some t :=
  Option.bind_eq_some_iff.mp h

theorem step_selectRow (h : (machine P contents).step s (.selectRow k) = some t) :
    ∃ cell, s.touched k = some cell ∧ s.didSelectRow cell.row = some t :=
  Option.bind_eq_some_iff.mp h

theorem step_deliverImage (h : (machine P contents).step s (.deliverImage n) = some t) :
    ∃ fetch, s.images[n]? = some fetch ∧
      t = { s with images := s.images.eraseIdx n }.imageFetched fetch (contents fetch.source) := by
  obtain ⟨fetch, hfetch, h⟩ := Option.bind_eq_some_iff.mp h
  exact ⟨fetch, hfetch, (Option.some.inj h).symm⟩

theorem step_failImage (h : (machine P contents).step s (.failImage n) = some t) :
    t = { s with images := s.images.eraseIdx n } := by
  obtain ⟨_, -, h⟩ := Option.bind_eq_some_iff.mp h
  exact (Option.some.inj h).symm

end Step

/-- The ways a step can change the table and the photos. -/
inductive StepCases (contents : ImageSource → Data) (s : ListScreen D) :
    Event D → ListScreen D → Prop
  | quiet {e : Event D} {t : ListScreen D} (hmessages : t.messages = s.messages)
      (htable : t.tableView = s.tableView) (hphotos : t.photos = s.photos)
      (hselection : s.selection e = []) : StepCases contents s e t
  | reload {e : Event D} {t : ListScreen D} (hreload : t.tableView.needsReload = true)
      (hphotos : t.photos = s.photos) (hselection : s.selection e = []) : StepCases contents s e t
  | layout {rows : List ℕ} {t : ListScreen D} (ht : s.layout rows = some t) :
      StepCases contents s (.layout rows) t
  | select {k : ℕ} {cell : MessageCell} {t : ListScreen D} (hcell : s.touched k = some cell)
      (ht : s.didSelectRow cell.row = some t) : StepCases contents s (.selectRow k) t
  | image {n : ℕ} {fetch : ImageFetch} (hfetch : s.images[n]? = some fetch) :
      StepCases contents s (.deliverImage n)
        ({ s with images := s.images.eraseIdx n }.imageFetched fetch (contents fetch.source))
  | failImage {n : ℕ} : StepCases contents s (.failImage n)
      { s with images := s.images.eraseIdx n }

variable {P : Platform D} {e : Event D}

/-- There are no other ways. -/
theorem stepCases_of_step (h : (machine P contents).step s e = some t) :
    StepCases contents s e t := by
  cases e with
  | changeLocation location =>
    obtain rfl := Option.some.inj h
    exact .quiet rfl rfl rfl rfl
  | changeDefaults defaults =>
    obtain rfl := Option.some.inj h
    exact .quiet rfl rfl rfl rfl
  | viewDidAppear =>
    obtain rfl := Option.some.inj h
    exact .quiet (MessagesListViewController.messages_viewDidAppear ..) rfl rfl rfl
  | pullToRefresh =>
    obtain rfl := Option.some.inj h
    exact .quiet (MessagesListViewController.messages_checkForNewYaks ..) rfl rfl rfl
  | didUpdateLocations location =>
    obtain rfl := Option.some.inj h
    exact .quiet rfl rfl rfl rfl
  | deliver n yaks =>
    obtain ⟨fetch, -, rfl⟩ := step_deliver h
    obtain ⟨hreload, hphotos, -⟩ :=
      photos_complete P { s with outstanding := s.outstanding.eraseIdx n } fetch yaks
    exact .reload hreload hphotos rfl
  | fail n =>
    obtain ⟨_, -, rfl⟩ := step_fail h
    exact .quiet rfl rfl rfl rfl
  | selectSegment selectedSegmentIndex =>
    obtain rfl := Option.some.inj h
    exact .reload rfl rfl rfl
  | layout rows => exact .layout h
  | vote dir k =>
    obtain ⟨cell, -, h⟩ := step_vote h
    obtain ⟨hreload, hphotos, -⟩ := photos_vote h
    exact .reload hreload hphotos rfl
  | selectRow k =>
    obtain ⟨cell, hcell, h⟩ := step_selectRow h
    exact .select hcell h
  | deliverImage n =>
    obtain ⟨fetch, hfetch, rfl⟩ := step_deliverImage h
    exact .image hfetch
  | failImage n =>
    obtain rfl := step_failImage h
    exact .failImage

/-- A step shows the rows again, or reads the cells later. -/
theorem Shown.step (hs : s.Shown) (h : (machine P contents).step s e = some t) : t.Shown := by
  have hcases := stepCases_of_step h
  cases hcases with
  | quiet hmessages htable hphotos hselection => exact hs.congr hmessages htable
  | reload hreload hphotos hselection => exact shown_of_needsReload hreload
  | layout ht => exact hs.layout ht
  | select hcell ht => exact hs.congr (table_didSelectRow ht).1 (table_didSelectRow ht).2.1
  | image hfetch => exact hs
  | failImage => exact hs

/-- A step hands over the photos of selected yaks, and caches photos under their own names. -/
theorem Imaged.step (hs : s.Imaged contents selections) (hshown : s.Shown)
    (h : (machine P contents).step s e = some t) :
    t.Imaged contents (selections ++ s.selection e) := by
  have hcases := stepCases_of_step h
  cases hcases with
  | quiet hmessages htable hphotos hselection =>
    rw [hselection, List.append_nil]
    exact hs.congr hphotos
  | reload hreload hphotos hselection =>
    rw [hselection, List.append_nil]
    exact hs.congr hphotos
  | layout ht =>
    simp only [selection, List.append_nil]
    exact hs.congr (photos_layout ht).2.1
  | select hcell ht =>
    simp only [selection, hcell, Option.map_some, Option.toList_some]
    exact hs.didSelectRow (hshown.touched hcell).2.2.2 ht
  | image hfetch =>
    simp only [selection, List.append_nil]
    obtain ⟨hsource, hyak, hselected⟩ := hs.images _ (List.mem_of_getElem? hfetch)
    exact (hs.eraseIdx _).imageFetched hsource hyak hselected
  | failImage =>
    simp only [selection, List.append_nil]
    exact hs.eraseIdx _

/-! ### Touches -/

theorem shown_start (selectedSegmentIndex : ℕ) (defaults : UserDefaults D)
    (location : Option GeoPoint) : (start selectedSegmentIndex defaults location).Shown :=
  shown_of_needsReload rfl

theorem imaged_start (contents : ImageSource → Data) (selectedSegmentIndex : ℕ)
    (defaults : UserDefaults D) (location : Option GeoPoint) :
    (start selectedSegmentIndex defaults location).Imaged contents [] where
  created := rfl
  cache url image h := by simp [start, issue] at h
  images fetch h := by simp [start, issue] at h
  presented newVC h := by simp [start, issue] at h

/-- **Row actions.** In every state of a run in which touches are delivered, whatever fetches,
sorting and photos have arrived in whatever order: a vote button of a cell has a tag that is a row
of `messages` and holds the yak shown in the cell with its likes; a tap on it changes the likes of
this yak by the swing of the vote, which is not zero, writes it back to its row, hands it over, and
changes no other row, unless the likes overflow; and a cell can be selected. The message screens
that were handed to `present` have the yaks that were shown in the selected rows at the moments of
the selections, and the photos of these yaks; and the cache has for each name the bytes of this
name. -/
theorem row_actions {selectedSegmentIndex : ℕ} {defaults : UserDefaults D}
    {location : Option GeoPoint} {es : List (Event D)}
    (hrun : (machine P contents).run (start selectedSegmentIndex defaults location) es = some s) :
    (∀ (k : ℕ) (cell : MessageCell), s.touched k = some cell →
      cell.tag < s.messages.length ∧ s.messages[cell.tag]? = some cell.yak ∧
      cell.votesLabel = cell.yak.likes ∧
      (∀ dir,
        let yak := (SnapYak.vote dir s.defaults cell.yak).yak
        let swing := s.defaults.swing dir cell.yak.imageUrl
        yak = cell.yak.addLikes swing ∧ swing ≠ 0 ∧
        (((machine P contents).step s (.vote dir k)).isSome ↔ IsInt yak.likes) ∧
        ∀ t, (machine P contents).step s (.vote dir k) = some t →
          t.messages = s.messages.set cell.tag yak ∧ t.updates = s.updates ++ [yak] ∧
          t.defaults = (SnapYak.vote dir s.defaults cell.yak).defaults) ∧
      ∃ t, (machine P contents).step s (.selectRow k) = some t) ∧
    (∀ newVC ∈ s.presented, ∃ yak,
      ((machine P contents).log selection (start selectedSegmentIndex defaults location)
        es)[newVC.number]? = some yak ∧ newVC.yak = some yak ∧
      newVC.cachedImage = some (contents (fetchImage yak.imageUrl))) ∧
    ∀ url image, s.imageCache url = some image → image = contents (fetchImage url) := by
  obtain ⟨hshown, himaged⟩ := Machine.history_induction (A := fun _ _ => True)
    (I := fun s selections => s.Shown ∧ Imaged contents selections s)
    (fun hs _ ht => ⟨hs.1.step ht, hs.2.step hs.1 ht⟩)
    ⟨shown_start selectedSegmentIndex defaults location, imaged_start ..⟩ (.trivial _ _) hrun
  refine ⟨fun k cell htouched => ?_, himaged.presented, himaged.cache⟩
  obtain ⟨hreload, hmem, htag, hrow⟩ := hshown.touched htouched
  have hyak : s.messages[cell.tag]? = some cell.yak := htag ▸ hrow
  refine ⟨(List.getElem?_eq_some_iff.mp hyak).1, hyak, (hshown hreload).votesLabel cell hmem,
    fun dir => ?_, ?_⟩
  · have hstep : (machine P contents).step s (.vote dir k) = s.vote dir cell.tag := by
      simp only [machine, htouched, Option.bind_eq_bind, Option.bind_some]
    rw [hstep]
    exact ⟨yak_vote .., UserDefaults.swing_ne_zero _ _ _, isSome_vote_iff hshown hreload hmem dir,
      fun t ht => messages_vote hyak ht⟩
  · obtain ⟨t, ht⟩ := exists_didSelectRow hrow
    refine ⟨t, ?_⟩
    simp only [machine, htouched, Option.bind_eq_bind, Option.bind_some, ht]

/-- Two yaks arrive and the second is selected. While its photo is fetched, another result with one
yak replaces both; when the photo arrives, the first yak is gone. The photo is handed over with its
own yak, and taken from the cache when the yak is selected again. -/
theorem row_actions_photo_arrives_late :
    let yak : Yak := ⟨"user", "image_0.jpg", ⟨0, 0⟩, 0, 0, []⟩
    let yak' : Yak := ⟨"user", "image_1.jpg", ⟨1, 1⟩, 0, 5, []⟩
    let contents : ImageSource → Data
      | .http _ => []
      | .storage ref => ref.object.flatten.map fun c => c.val.toUInt8
    let es : List (Event ℕ) := [.deliver 0 [yak, yak'], .layout [0, 1], .selectRow 1,
      .pullToRefresh, .vote .up 0, .deliver 0 [yak'], .deliverImage 0, .layout [0], .selectRow 0]
    ∃ s, (machine Platform.discrete contents).run (start 0 .empty (some ⟨0, 0⟩)) es = some s ∧
      (∀ newVC ∈ s.presented, newVC.yak = some yak' ∧
        newVC.cachedImage = some (contents (fetchImage yak'.imageUrl))) ∧
      s.presented.length = 2 := by
  intro yak yak' contents es
  have hrun : (machine Platform.discrete contents).run (start 0 .empty (some ⟨0, 0⟩)) es =
    some _ := rfl
  refine ⟨_, hrun, fun newVC hmem => ?_, rfl⟩
  obtain ⟨yak'', hselected, hyak, himage⟩ := (row_actions hrun).2.1 newVC hmem
  have hlog : (machine Platform.discrete contents).log selection (start 0 .empty (some ⟨0, 0⟩)) es =
    [yak', yak'] := rfl
  rw [hlog] at hselected
  have heq : yak'' = yak' := by simpa using List.mem_of_getElem? hselected
  rw [heq] at hyak himage
  exact ⟨hyak, himage⟩

end ListScreen

end SnapYak
