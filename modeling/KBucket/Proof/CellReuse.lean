import KBucket.Lib.Run
import KBucket.View.BucketListView
import KBucket.View.NoticeView
import KBucket.View.RankListView

/-!
# Cells that are used again

A row is displayed on a cell that has displayed other rows before, and leaks none of them if it
comes to the same on whatever cell. Rows of the ranking and of the notices write all there is to
see. A row of the achieved buckets writes its photo only if it has one, and shows the photo of
the row before on its cell if it has none. What no row writes is the background as long as no
theme is stored, and there all cells have that of the prototype.

Which rows a cell has displayed before is left open: `Forgets` compares a row on a cell with any
history to the row on a fresh one, so no order of scrolling has to be described. What a cell draws
by itself, apart from what a data source writes on it, is no part of it here.
-/

namespace KBucket

open Lib

/-- A cell displays a row of a list, of whatever list the screen has by then. -/
def RankListView.display (w : Nat) (mBackColor : String) (cell : UITableViewCell RankCustomCell)
    (row : RankListView × Nat) : Except Trap (UITableViewCell RankCustomCell) :=
  row.1.tableView w mBackColor row.2 cell

/-- A row of the notices comes with the rows that are expanded. -/
def NoticeView.display (cell : UITableViewCell NoticeCustomCell)
    (row : NoticeView × List Nat × Nat) : Except Trap (UITableViewCell NoticeCustomCell) :=
  row.1.tableView row.2.1 row.2.2 cell

variable {Image : Type} {codec : ImageCodec Image} {documents : Documents} {w : Nat}
  {mBackColor : String}

def BucketListView.display (codec : ImageCodec Image) (documents : Documents) (w : Nat)
    (mBackColor : String) (cell : UITableViewCell (BucketCustomCell Image))
    (row : BucketListView × Nat) : Except Trap (UITableViewCell (BucketCustomCell Image)) :=
  row.1.tableView codec documents w mBackColor row.2 cell

/-! ## The background -/

namespace UITableViewCell

variable {Content : Type} {cell cell' fresh : UITableViewCell Content} {content : Content}

/-- Where no theme is stored the background is that of the prototype. -/
def Plain (mBackColor : String) (fresh cell : UITableViewCell Content) : Prop :=
  mBackColor.length > 0 ∨ cell.backgroundColor = fresh.backgroundColor

theorem Plain.setBackColor (h : Plain mBackColor fresh cell) :
    Plain mBackColor fresh ((cell.fill content).setBackColor w mBackColor) := by
  unfold UITableViewCell.setBackColor
  rcases h with h | h
  · exact .inl h
  · split
    · next htheme => exact .inl htheme
    · exact .inr h

theorem setBackColor_congr (h : Plain mBackColor fresh cell) (h' : Plain mBackColor fresh cell') :
    (cell.fill content).setBackColor w mBackColor
      = (cell'.fill content).setBackColor w mBackColor := by
  unfold UITableViewCell.setBackColor fill
  split
  · rfl
  · next htheme =>
    have hbg := (h.resolve_left htheme).trans (h'.resolve_left htheme).symm
    simp only [hbg]

end UITableViewCell

/-! ## The ranking and the notices -/

/-- A row of the ranking writes every outlet. -/
theorem RankListView.cellForRowAt_congr (v : RankListView) (row : Nat)
    (cell cell' : RankCustomCell) : v.cellForRowAt row cell = v.cellForRowAt row cell' := by
  rfl

theorem RankListView.display_forgets (w : Nat) (mBackColor : String)
    (fresh : UITableViewCell RankCustomCell) (row : RankListView × Nat) :
    Forgets (display w mBackColor) fresh row := by
  refine Forgets.of_invariant (I := UITableViewCell.Plain mBackColor fresh) (.inr rfl) ?_ ?_
  · intro cell row cell' h hstep
    obtain ⟨content, -, hstep⟩ := bind_eq_ok.mp hstep
    cases hstep
    exact h.setBackColor
  · intro cell cell' h h'
    unfold display tableView
    rw [cellForRowAt_congr row.1 row.2 cell.content cell'.content]
    refine bind_congr fun content => ?_
    rw [UITableViewCell.setBackColor_congr h h']

theorem NoticeView.cellForRowAt_congr (v : NoticeView) (expandedRows : List Nat) (row : Nat)
    (cell cell' : NoticeCustomCell) :
    v.cellForRowAt expandedRows row cell = v.cellForRowAt expandedRows row cell' := by
  rfl

/-- The notices write no background at all. -/
theorem NoticeView.display_forgets (fresh : UITableViewCell NoticeCustomCell)
    (row : NoticeView × List Nat × Nat) : Forgets display fresh row := by
  refine Forgets.of_invariant (I := fun cell => cell.backgroundColor = fresh.backgroundColor)
    rfl ?_ ?_
  · intro cell row cell' h hstep
    obtain ⟨content, -, hstep⟩ := bind_eq_ok.mp hstep
    cases hstep
    exact h
  · intro cell cell' h h'
    unfold display tableView
    rw [cellForRowAt_congr row.1 row.2.1 row.2.2 cell.content cell'.content]
    refine bind_congr fun content => ?_
    unfold UITableViewCell.fill
    rw [h, h']

/-! ## The achieved buckets -/

namespace BucketListView

/-- What a row puts on a cell, the image that it leaves there included. -/
def contentOf (codec : ImageCodec Image) (documents : Documents) (row : Nat)
    (ivImage : Option Image) (postData : PostData) : BucketCustomCell Image where
  mEtContent := postData.m_contents
  mBtDate := postData.m_date
  tintColor := "black"
  ivImage := if postData.mImageName.length > 0 then
    DataUtils.load codec documents postData.mImageName else ivImage
  mData := toString row

theorem cellForRowAt_eq (v : BucketListView) (row : Nat) (cell : BucketCustomCell Image) :
    v.cellForRowAt codec documents row cell =
      (arrayGet v.mDataList row).map (contentOf codec documents row cell.ivImage) := by
  unfold cellForRowAt contentOf
  cases arrayGet v.mDataList row with
  | error e => rfl
  | ok postData =>
    by_cases h : postData.mImageName.length > 0
    · simp only [ok_bind, Except.map, if_pos h]
      rfl
    · simp only [ok_bind, Except.map, if_neg h]
      rfl

/-- No photo that a row could bring looks different from the image of the prototype. -/
def SameImages (codec : ImageCodec Image) (documents : Documents)
    (fresh : UITableViewCell (BucketCustomCell Image)) : Prop :=
  ∀ fileName : String, fileName.length > 0 →
    DataUtils.load codec documents fileName = fresh.content.ivImage

/-- A row that there is names a photo, unless all photos look the same. -/
def OwnImage (codec : ImageCodec Image) (documents : Documents)
    (fresh : UITableViewCell (BucketCustomCell Image)) (row : BucketListView × Nat) : Prop :=
  ∀ postData, row.1.mDataList[row.2]? = some postData →
    postData.mImageName.length > 0 ∨ SameImages codec documents fresh

variable {fresh : UITableViewCell (BucketCustomCell Image)} {row : BucketListView × Nat}

/-- What every cell of the screen has that no row writes. -/
structure Unwritten (codec : ImageCodec Image) (documents : Documents) (mBackColor : String)
    (fresh cell : UITableViewCell (BucketCustomCell Image)) : Prop where
  plain : UITableViewCell.Plain mBackColor fresh cell
  image : SameImages codec documents fresh → cell.content.ivImage = fresh.content.ivImage

theorem unwritten_display {cell cell' : UITableViewCell (BucketCustomCell Image)}
    (h : Unwritten codec documents mBackColor fresh cell)
    (hstep : display codec documents w mBackColor cell row = .ok cell') :
    Unwritten codec documents mBackColor fresh cell' := by
  obtain ⟨content, hcontent, hstep⟩ := bind_eq_ok.mp hstep
  cases hstep
  rw [cellForRowAt_eq] at hcontent
  obtain ⟨postData, -, rfl⟩ := map_eq_ok.mp hcontent
  refine ⟨h.plain.setBackColor, fun hsame => ?_⟩
  have himage : (contentOf codec documents row.2 cell.content.ivImage postData).ivImage
      = fresh.content.ivImage := by
    unfold contentOf
    split
    · next hname => exact hsame _ hname
    · exact h.image hsame
  unfold UITableViewCell.setBackColor
  split <;> exact himage

theorem forgets_of_ownImage (hrow : OwnImage codec documents fresh row) :
    Forgets (display codec documents w mBackColor) fresh row := by
  have hfresh : Unwritten codec documents mBackColor fresh fresh := ⟨.inr rfl, fun _ => rfl⟩
  refine Forgets.of_invariant hfresh (fun _ _ _ h hstep => unwritten_display h hstep) ?_
  intro cell cell' h h'
  have hcontent : row.1.cellForRowAt codec documents row.2 cell.content
      = row.1.cellForRowAt codec documents row.2 cell'.content := by
    rw [cellForRowAt_eq, cellForRowAt_eq]
    cases hget : arrayGet row.1.mDataList row.2 with
    | error e => rfl
    | ok postData =>
      have himage : contentOf codec documents row.2 cell.content.ivImage postData
          = contentOf codec documents row.2 cell'.content.ivImage postData := by
        rcases hrow postData (arrayGet_eq_ok.mp hget).2 with hname | hsame
        · unfold contentOf
          rw [if_pos hname, if_pos hname]
        · rw [h.image hsame, h'.image hsame]
      exact congrArg Except.ok himage
  unfold display tableView
  rw [hcontent]
  refine bind_congr fun content => ?_
  rw [UITableViewCell.setBackColor_congr h.plain h'.plain]

/-- A row that there is goes on any cell. -/
theorem display_eq (row : BucketListView × Nat) {postData : PostData}
    (hget : row.1.mDataList[row.2]? = some postData)
    (cell : UITableViewCell (BucketCustomCell Image)) :
    ∃ cell', display codec documents w mBackColor cell row = .ok cell' ∧
      cell'.content = contentOf codec documents row.2 cell.content.ivImage postData := by
  have hrow : arrayGet row.1.mDataList row.2 = .ok postData :=
    arrayGet_eq_ok.mpr ⟨Int.natCast_nonneg _, hget⟩
  have hcell : row.1.cellForRowAt codec documents row.2 cell.content
      = .ok (contentOf codec documents row.2 cell.content.ivImage postData) := by
    rw [cellForRowAt_eq, hrow]
    rfl
  refine ⟨_, bind_eq_ok.mpr ⟨_, hcell, rfl⟩, ?_⟩
  unfold UITableViewCell.setBackColor
  split <;> rfl

/-- The list of one bucket with a photo. -/
def withPhoto (fileName : String) : BucketListView where
  device := { realm := Table.empty, defaults := fun _ => none }
  mDataList := [{ mImageName := fileName }]

theorem runs_withPhoto (codec : ImageCodec Image) (documents : Documents) (w : Nat)
    (mBackColor : String) (fresh : UITableViewCell (BucketCustomCell Image)) {fileName : String}
    (hfile : fileName.length > 0) :
    ∃ cell, Runs (display codec documents w mBackColor) fresh [(withPhoto fileName, 0)] cell ∧
      cell.content.ivImage = DataUtils.load codec documents fileName := by
  obtain ⟨cell, hstep, hcontent⟩ := display_eq (withPhoto fileName, 0) rfl fresh
  refine ⟨cell, .single hstep, ?_⟩
  rw [hcontent]
  exact if_pos hfile

/-- A row without a photo shows one that was on its cell before. -/
theorem ownImage_of_forgets (h : Forgets (display codec documents w mBackColor) fresh row) :
    OwnImage codec documents fresh row := by
  intro postData hget
  by_cases hname : postData.mImageName.length > 0
  · exact .inl hname
  · refine .inr fun fileName hfile => ?_
    -- The row on a cell that a photo has been on, and on a fresh one.
    obtain ⟨before, hruns, hphoto⟩ := runs_withPhoto codec documents w mBackColor fresh hfile
    obtain ⟨cell, hcell, hcontent⟩ := display_eq row hget before
    obtain ⟨cell', hcell', hcontent'⟩ := display_eq row hget fresh
    have heq := h _ _ before fresh hruns (.nil fresh)
    rw [hcell, hcell'] at heq
    cases heq
    rw [hcontent] at hcontent'
    have himage := congrArg BucketCustomCell.ivImage hcontent'
    unfold contentOf at himage
    rw [if_neg hname, if_neg hname] at himage
    rw [← hphoto, himage]

end BucketListView

/-- **Rows of the ranking and of the notices do not leak, whatever rows their cells have displayed;
    a row of the achieved buckets does not leak exactly when it has a photo of its own.**

    A cell may have displayed any rows of any lists before. Only what a data source writes counts;
    what the cell classes draw of themselves is left out. -/
theorem rows_forget_iff {Image : Type} (codec : ImageCodec Image) (documents : Documents) (w : Nat)
    (mBackColor : String) :
    (∀ (fresh : UITableViewCell RankCustomCell) (row : RankListView × Nat),
      Forgets (RankListView.display w mBackColor) fresh row) ∧
    (∀ (fresh : UITableViewCell NoticeCustomCell) (row : NoticeView × List Nat × Nat),
      Forgets NoticeView.display fresh row) ∧
    ∀ (fresh : UITableViewCell (BucketCustomCell Image)) (row : BucketListView × Nat),
      Forgets (BucketListView.display codec documents w mBackColor) fresh row ↔
        BucketListView.OwnImage codec documents fresh row := by
  refine ⟨RankListView.display_forgets w mBackColor, NoticeView.display_forgets, ?_⟩
  intro fresh row
  exact ⟨BucketListView.ownImage_of_forgets, BucketListView.forgets_of_ownImage⟩

/-- The photo of Paris is the one file there is. -/
def parisOnly : Documents := fun name => if name = "paris.jpg" then some [1] else none

/-- Two achieved buckets, the second without a photo. -/
def parisAndRome : BucketListView where
  device := { realm := Table.empty, defaults := fun _ => none }
  mDataList := [{ m_contents := "Paris", mCompleteYN := "Y", mImageName := "paris.jpg" },
    { m_contents := "Rome", mCompleteYN := "Y" }]

/-- The cell of the storyboard, with a placeholder for the image. -/
def prototype : UITableViewCell (BucketCustomCell Data) where
  content := { mBtDate := "2017-00-00", ivImage := some [0] }

/-- Rome shows the placeholder at first, and the photo of Paris after scrolling. -/
theorem photo_leaks :
    (¬ ∀ (Image : Type) (codec : ImageCodec Image) (documents : Documents) (w : Nat)
      (mBackColor : String) (fresh : UITableViewCell (BucketCustomCell Image))
      (row : BucketListView × Nat),
      Forgets (BucketListView.display codec documents w mBackColor) fresh row) ∧
    ∃ cell cell' cell'',
      BucketListView.display plainCodec parisOnly 64 "" prototype (parisAndRome, 1) = .ok cell ∧
      BucketListView.display plainCodec parisOnly 64 "" prototype (parisAndRome, 0) = .ok cell' ∧
      BucketListView.display plainCodec parisOnly 64 "" cell' (parisAndRome, 1) = .ok cell'' ∧
      cell.content.ivImage = some [0] ∧ cell''.content.ivImage = some [1] := by
  refine ⟨fun h => ?_, _, _, _, rfl, rfl, rfl, rfl, rfl⟩
  have hown := BucketListView.ownImage_of_forgets
    (h Data plainCodec parisOnly 64 "" prototype (parisAndRome, 1))
  rcases hown _ rfl with hname | hsame
  · exact absurd hname (by decide)
  · have hload := hsame "paris.jpg" (by decide)
    cases hload

end KBucket
