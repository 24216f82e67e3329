import KBucket.Proof.RankList
import KBucket.Proof.ShareList

/-!
# Rows and the list behind them

Between an answer and the reload that it asks for, the table still goes by the list as it was. A
state is safe when whatever comes next is in order: no index is out of range, and a tap opens the
bucket that the row shows. Which answers lead out of the safe states is said exactly, for either
screen.

Each screen has its events in any order, and its answers are arbitrary. A trap that an unreadable
answer causes is not held against the rows: what is asked is whether rows and list agree in the
states that a run comes to. On the ranking no row can be tapped open, so its condition is the
weaker one.
-/

namespace KBucket

open Lib

/-! ## The ranking -/

namespace RankScreen

variable {s : RankScreen}

/-- Whatever event comes next, its indices are in range. -/
def Safe [Platform] (s : RankScreen) : Prop := ∀ e, step s e ≠ .error .indexOutOfRange

/-- An answer leaves every row that the table believes in: a list is empty, in which case it is
    not taken, or has at least as many items as the table has rows; and a vote is acknowledged
    only to a table without rows. -/
def LeavesRows [Platform] (s : RankScreen) : Event → Prop
  | .response type actionId data =>
    type = ConstHTTP.HTTP_OK →
      (actionId = ConstHTTP.RANK_LIST → ∀ buckets, RankListView.Answers data buckets →
        buckets = [] ∨ s.table.rows ≤ buckets.length) ∧
      (actionId = ConstHTTP.RANK_UPDATE_COMMENT → Json.isValid data = .ok true →
        s.table.rows = 0)
  | _ => True

theorem covered_of_safe [Platform] (hs : s.Safe) : s.table.Covered s.view.mBucketDataList := by
  rw [TableView.covered_iff]
  intro row hrow
  by_contra hlen
  have hnone := arrayGet_outOfRange (Nat.le_of_not_lt hlen)
  apply hs (.cell row)
  simp [step, hrow, RankListView.cellForRowAt, hnone]

theorem safe_of_covered [Platform] (hcov : s.table.Covered s.view.mBucketDataList) : s.Safe := by
  intro e h
  cases e with
  | response type actionId data =>
    rcases bind_eq_error.mp h with h | ⟨view, -, h⟩
    · cases RankListView.onHttpReceive_trap _ _ _ _ _ h
    · cases h
  | reload =>
    simp only [step] at h
    split at h <;> cases h
  | cell row =>
    simp only [step] at h
    split at h
    · next hrow =>
      have hlen := TableView.covered_iff.mp hcov row hrow
      simp only [RankListView.cellForRowAt, arrayGet_ofNat hlen] at h
      cases h
    · cases h
  | press row button =>
    simp only [step] at h
    split at h
    · rcases bind_eq_error.mp h with h | ⟨view, -, h⟩
      · cases RankListView.receiveEventFromViewItem_trap _ _ _ _ h
      · cases h
    · cases h

/-- An answer keeps the rows covered exactly when it leaves them. -/
theorem response_safe_iff [Platform] {type actionId : Int} {data : Option Json}
    (hcov : s.table.Covered s.view.mBucketDataList) :
    (∀ t, step s (.response type actionId data) = .ok t → t.Safe) ↔
      s.LeavesRows (.response type actionId data) := by
  constructor
  · intro hsafe htype
    subst htype
    refine ⟨?_, ?_⟩
    · intro hid buckets hdata
      subst hid
      have hstep : step s (.response ConstHTTP.HTTP_OK ConstHTTP.RANK_LIST data) =
          .ok { s with view := s.view.listed buckets } :=
        bind_eq_ok.mpr ⟨_, RankListView.onHttpReceive_listed hdata, rfl⟩
      have hcov' := covered_of_safe (hsafe _ hstep)
      by_cases hnil : buckets = []
      · exact Or.inl hnil
      · right
        simpa [RankListView.listed, hnil, TableView.Covered] using hcov'
    · intro hid hvalid
      subst hid
      have hstep : step s (.response ConstHTTP.HTTP_OK ConstHTTP.RANK_UPDATE_COMMENT data) =
          .ok { s with view := s.view.acknowledged } :=
        bind_eq_ok.mpr ⟨_, RankListView.onHttpReceive_acknowledged hvalid, rfl⟩
      exact Nat.le_zero.mp (covered_of_safe (hsafe _ hstep))
  · intro hleaves t h
    obtain ⟨view, hview, h⟩ := bind_eq_ok.mp h
    cases h
    apply safe_of_covered
    cases RankListView.received hview with
    | listed buckets htype hid hdata =>
      show s.table.rows ≤ (if buckets = [] then _ else buckets : List BucketRank).length
      split
      · exact hcov
      · next hnil => exact ((hleaves htype).1 hid buckets hdata).resolve_left hnil
    | acknowledged htype hid hvalid =>
      exact Nat.le_of_eq ((hleaves htype).2 hid hvalid)
    | failed => exact hcov
    | ignored => exact hcov

/-- Only an answer can lead out of the safe states. -/
theorem step_safe_iff [Platform] {e : Event} (hs : s.Safe) :
    (∀ t, step s e = .ok t → t.Safe) ↔ s.LeavesRows e := by
  have hcov := covered_of_safe hs
  cases e with
  | response type actionId data => exact response_safe_iff hcov
  | reload =>
    refine iff_of_true (fun t h => ?_) trivial
    simp only [step] at h
    split at h
    · cases h
      exact safe_of_covered (TableView.covered_reload _)
    · cases h; exact hs
  | cell row =>
    refine iff_of_true (fun t h => ?_) trivial
    by_cases hrow : row < s.table.rows
    · obtain ⟨cell, bucket, -, -, rfl⟩ := step_cell hrow h
      exact safe_of_covered hcov
    · simp only [step, dif_neg hrow] at h
      cases h; exact hs
  | press row button =>
    refine iff_of_true (fun t h => ?_) trivial
    simp only [step] at h
    split at h
    · obtain ⟨view, hview, h⟩ := bind_eq_ok.mp h
      cases h
      obtain ⟨idx, -, rfl⟩ := RankListView.receiveEventFromViewItem_ok hview
      apply safe_of_covered
      rw [RankListView.pressed_mBucketDataList]
      exact hcov
    · cases h; exact hs

theorem safe_load [Platform] (defaults : UserDefaults) (isConnect : Bool) :
    (load defaults isConnect).Safe :=
  safe_of_covered (Nat.zero_le _)

end RankScreen

/-! ## The shared buckets -/

namespace ShareScreen

variable {s : ShareScreen}

/-- Whatever event comes next, its indices are in range, and a tap on a row opens the bucket that
    the row shows. -/
def Safe [Platform] (s : ShareScreen) : Prop :=
  (∀ e, step s e ≠ .error .indexOutOfRange) ∧
  ∀ row cell bucket, s.table.shown row = some (cell, bucket) →
    ∃ t, step s (.tap row) = .ok t ∧
      t.view.presented = s.view.presented ++ [ShareListView.shareDetail bucket]

/-- Every row on display opens as the bucket that the list has there. -/
abbrev OpensAs (s : ShareScreen) (buckets : List Bucket) : Prop :=
  s.table.Faithful (fun c => ShareListView.shareDetail c.2) ShareListView.shareDetail buckets

/-- A list that arrives has a bucket for every row of the table, and on the rows on display the
    buckets that are shown there already, as far as the detail screen is told of them. -/
def LeavesRows [Platform] (s : ShareScreen) : Event → Prop
  | .response type actionId data =>
    type = ConstHTTP.HTTP_OK → actionId = ConstHTTP.BUCKET_LIST →
      ∀ buckets, ShareListView.Answers data buckets →
        s.table.rows ≤ buckets.length ∧ s.OpensAs buckets
  | _ => True

/-- Every cell carries the number of its row, which `Int(_:)` reads back. -/
structure Labelled [Platform] (s : ShareScreen) : Prop where
  fits : FitsInt s.table.rows
  mData : ∀ row c, s.table.shown row = some c → c.1.mData = toString row

theorem Labelled.fits_row [Platform] (hl : s.Labelled) {row : Nat} (hrow : row < s.table.rows) :
    FitsInt row :=
  hl.fits.of_le (Int.natCast_nonneg row) (Int.ofNat_le.mpr (Nat.le_of_lt hrow))

/-- What a tap on a row on display does. -/
theorem step_tap [Platform] (hl : s.Labelled) {row : Nat} {cell : ShareCustomCell} {bucket : Bucket}
    (hshown : s.table.shown row = some (cell, bucket)) :
    step s (.tap row) = (do
      let b ← arrayGet s.view.mBucketDataList row
      return { s with view := { s.view with
        presented := s.view.presented ++ [ShareListView.shareDetail b] } }) := by
  have hfits := hl.fits_row (s.table.shown_lt row _ hshown)
  have hdata : cell.mData = toString row := hl.mData row _ hshown
  simp only [step, hshown, hdata]
  rw [ShareListView.receiveEventFromViewItem_row _ hfits]
  cases arrayGet s.view.mBucketDataList row with
  | error e => rfl
  | ok b => rfl

/-- A row as the table shows it. -/
def rowOf (row : Nat) (bucket : Bucket) : ShareCustomCell × Bucket :=
  ({ etEdit := bucket.mContent, mData := toString row }, bucket)

/-- What the table does with a row that it has: it is shown as the list has it, if the list does. -/
theorem step_cell [Platform] {row : Nat} (hrow : row < s.table.rows) {t : ShareScreen}
    (h : step s (.cell row) = .ok t) :
    ∃ bucket, s.view.mBucketDataList[row]? = some bucket ∧
      t = { s with table := s.table.display row (rowOf row bucket) hrow } := by
  simp only [step, dif_pos hrow] at h
  obtain ⟨cell, hcell, h⟩ := bind_eq_ok.mp h
  obtain ⟨bucket, hbucket, h⟩ := bind_eq_ok.mp h
  obtain ⟨bucket', hbucket', hcell⟩ := bind_eq_ok.mp hcell
  rw [hbucket] at hbucket'
  cases hbucket'
  cases hcell
  cases h
  exact ⟨bucket, (arrayGet_eq_ok.mp hbucket).2, rfl⟩

theorem covered_of_inRange [Platform] (h : ∀ e, step s e ≠ .error .indexOutOfRange) :
    s.table.Covered s.view.mBucketDataList := by
  rw [TableView.covered_iff]
  intro row hrow
  by_contra hlen
  have hnone := arrayGet_outOfRange (Nat.le_of_not_lt hlen)
  apply h (.cell row)
  simp [step, hrow, ShareListView.cellForRowAt, hnone]

theorem inRange_of_covered [Platform] (hl : s.Labelled)
    (hcov : s.table.Covered s.view.mBucketDataList)
    (e : Event) : step s e ≠ .error .indexOutOfRange := by
  intro h
  cases e with
  | category sender isConnect => cases h
  | response type actionId data =>
    rcases bind_eq_error.mp h with h | ⟨view, -, h⟩
    · cases ShareListView.onHttpReceive_trap _ _ _ _ _ h
    · cases h
  | reload =>
    simp only [step] at h
    split at h <;> cases h
  | cell row =>
    simp only [step] at h
    split at h
    · next hrow =>
      have hlen := TableView.covered_iff.mp hcov row hrow
      simp only [ShareListView.cellForRowAt, arrayGet_ofNat hlen] at h
      cases h
    · cases h
  | tap row =>
    cases hshown : s.table.shown row with
    | none =>
      simp only [step, hshown] at h
      cases h
    | some c =>
      have hlen := TableView.covered_iff.mp hcov row (s.table.shown_lt row c hshown)
      rw [step_tap hl hshown, arrayGet_ofNat hlen] at h
      cases h

/-- **A state is safe exactly when the list covers the table and opens as it is shown.** -/
theorem safe_iff [Platform] (hl : s.Labelled) :
    s.Safe ↔ s.table.Covered s.view.mBucketDataList ∧ s.OpensAs s.view.mBucketDataList := by
  constructor
  · intro hs
    refine ⟨covered_of_inRange hs.1, ?_⟩
    rintro row ⟨cell, bucket⟩ hshown
    obtain ⟨t, htap, hpresented⟩ := hs.2 row cell bucket hshown
    rw [step_tap hl hshown] at htap
    obtain ⟨b, hb, htap⟩ := bind_eq_ok.mp htap
    cases htap
    have hlast := List.append_cancel_left hpresented
    exact ⟨b, (arrayGet_eq_ok.mp hb).2, List.head_eq_of_cons_eq hlast⟩
  · intro h
    refine ⟨inRange_of_covered hl h.1, ?_⟩
    intro row cell bucket hshown
    obtain ⟨b, hb, heq⟩ := h.2 row _ hshown
    have hget := arrayGet_eq_ok.mpr ⟨Int.natCast_nonneg row, hb⟩
    refine ⟨_, (step_tap hl hshown).trans (by rw [hget]; rfl), ?_⟩
    rw [heq]

/-- Every step keeps the cells labelled. -/
theorem labelled_step [Platform] {t : ShareScreen} {e : Event} (hl : s.Labelled)
    (h : step s e = .ok t) :
    t.Labelled := by
  cases e with
  | category sender isConnect => cases h; exact ⟨hl.fits, hl.mData⟩
  | response type actionId data =>
    obtain ⟨view, -, h⟩ := bind_eq_ok.mp h
    cases h
    exact ⟨hl.fits, hl.mData⟩
  | reload =>
    simp only [step] at h
    split at h
    · next hreload =>
      cases h
      exact ⟨hreload.2, fun row c hc => by cases hc⟩
    · cases h; exact hl
  | cell row =>
    by_cases hrow : row < s.table.rows
    · obtain ⟨bucket, -, rfl⟩ := step_cell hrow h
      have hlabel : (rowOf row bucket).1.mData = toString row := rfl
      exact ⟨hl.fits, TableView.forall_shown_display hl.mData hlabel hrow⟩
    · simp only [step, dif_neg hrow] at h
      cases h; exact hl
  | tap row =>
    simp only [step] at h
    split at h
    · obtain ⟨view, -, h⟩ := bind_eq_ok.mp h
      cases h
      exact ⟨hl.fits, hl.mData⟩
    · cases h; exact hl

/-- An answer keeps the state safe exactly when it leaves the rows. -/
theorem response_safe_iff [Platform] {type actionId : Int} {data : Option Json} (hl : s.Labelled)
    (hcov : s.table.Covered s.view.mBucketDataList) (hopens : s.OpensAs s.view.mBucketDataList) :
    (∀ t, step s (.response type actionId data) = .ok t → t.Safe) ↔
      s.LeavesRows (.response type actionId data) := by
  constructor
  · intro hsafe htype hid buckets hdata
    subst htype hid
    have hstep : step s (.response ConstHTTP.HTTP_OK ConstHTTP.BUCKET_LIST data) =
        .ok { s with view := s.view.listed buckets } :=
      bind_eq_ok.mpr ⟨_, ShareListView.onHttpReceive_listed hdata, rfl⟩
    exact (safe_iff (labelled_step hl hstep)).mp (hsafe _ hstep)
  · intro hleaves t h
    apply (safe_iff (labelled_step hl h)).mpr
    obtain ⟨view, hview, h⟩ := bind_eq_ok.mp h
    cases h
    cases ShareListView.received hview with
    | listed buckets htype hid hdata => exact hleaves htype hid buckets hdata
    | categories list => exact ⟨hcov, hopens⟩
    | failed => exact ⟨hcov, hopens⟩
    | ignored => exact ⟨hcov, hopens⟩

/-- Only the arrival of a list can lead out of the safe states. -/
theorem step_safe_iff [Platform] {e : Event} (hl : s.Labelled) (hs : s.Safe) :
    (∀ t, step s e = .ok t → t.Safe) ↔ s.LeavesRows e := by
  obtain ⟨hcov, hopens⟩ := (safe_iff hl).mp hs
  have hto : ∀ t, step s e = .ok t →
      t.table.Covered t.view.mBucketDataList ∧ t.OpensAs t.view.mBucketDataList → t.Safe :=
    fun t h => (safe_iff (labelled_step hl h)).mpr
  cases e with
  | category sender isConnect =>
    refine iff_of_true (fun t h => hto t h ?_) trivial
    cases h
    obtain ⟨hlist, -⟩ := ShareListView.onClick_keeps s.view sender isConnect
    show s.table.Covered _ ∧ s.table.Faithful _ _ _
    rw [hlist]
    exact ⟨hcov, hopens⟩
  | response type actionId data => exact response_safe_iff hl hcov hopens
  | reload =>
    refine iff_of_true (fun t h => hto t h ?_) trivial
    simp only [step] at h
    split at h
    · cases h
      exact ⟨TableView.covered_reload _, TableView.faithful_reload _ _ _ _⟩
    · cases h; exact ⟨hcov, hopens⟩
  | cell row =>
    refine iff_of_true (fun t h => hto t h ?_) trivial
    by_cases hrow : row < s.table.rows
    · obtain ⟨bucket, hbucket, rfl⟩ := step_cell hrow h
      have hopen : ShareListView.shareDetail bucket =
          ShareListView.shareDetail (rowOf row bucket).2 := rfl
      exact ⟨hcov, hopens.display hbucket hopen hrow⟩
    · simp only [step, dif_neg hrow] at h
      cases h; exact ⟨hcov, hopens⟩
  | tap row =>
    refine iff_of_true (fun t h => hto t h ?_) trivial
    cases hshown : s.table.shown row with
    | none =>
      simp only [step, hshown] at h
      cases h; exact ⟨hcov, hopens⟩
    | some c =>
      rw [step_tap hl hshown] at h
      obtain ⟨b, -, h⟩ := bind_eq_ok.mp h
      cases h
      exact ⟨hcov, hopens⟩

theorem labelled_load [Platform] (isConnect : Bool) : (load isConnect).Labelled where
  fits := show FitsInt 0 from fitsInt_of_lt (by decide) (by decide)
  mData row c h := by cases h

theorem safe_load [Platform] (isConnect : Bool) : (load isConnect).Safe :=
  (safe_iff (labelled_load isConnect)).mpr
    ⟨Nat.zero_le _, TableView.faithful_reload _ _ 0 _⟩

end ShareScreen

/-! ## Runs -/

/-- **Rows and list agree throughout a run of either screen exactly when no answer takes away a
    row of the table, and, where rows can be tapped, none puts another bucket behind a row on
    display.**

    The answers are arbitrary: no server is assumed. What is left out are the traps of answers that
    cannot be read, which `answers_survived_iff` is about. -/
theorem rows_agree_iff [Platform] (defaults : UserDefaults) (isConnect : Bool)
    (ranking : List RankScreen.Event) (shared : List ShareScreen.Event) :
    (Always RankScreen.step RankScreen.Safe (.load defaults isConnect) ranking ↔
      Guarded RankScreen.step RankScreen.LeavesRows (.load defaults isConnect) ranking) ∧
    (Always ShareScreen.step ShareScreen.Safe (.load isConnect) shared ↔
      Guarded ShareScreen.step ShareScreen.LeavesRows (.load isConnect) shared) := by
  constructor
  · have hsafe := RankScreen.safe_load defaults isConnect
    refine always_iff_guarded (J := fun _ => True) (fun _ _ _ _ _ => trivial) ?_ trivial hsafe
      ranking
    intro s e _ hs
    exact RankScreen.step_safe_iff hs
  · -- Its taps read the labels of a cell, which every step keeps right.
    have hsafe := ShareScreen.safe_load isConnect
    have hlabelled := ShareScreen.labelled_load isConnect
    refine always_iff_guarded (fun s e t hl h => ShareScreen.labelled_step hl h) ?_ hlabelled
      hsafe shared
    intro s e hl hs
    exact ShareScreen.step_safe_iff hl hs

/-- A list of one shared bucket. -/
def oneShared (idx : Int) (content : String) : Json :=
  .obj [("isValid", .bool true), ("bucketList", .arr [.obj [("content", .str content),
    ("createDt", .str "2017-11-04"), ("phone", .str ""), ("idx", .int idx),
    ("imageUrl", .str ""), ("nickName", .str "kiki"), ("categoryCode", .int 1)]])]

/-- The vote on the only row is acknowledged, and the row is asked for again: the table still has
    it, the list does not. And a list that arrives for the next category changes, before the
    reload, what a tap on the row of the last one opens. -/
theorem rows_disagree :
    (∃ s, Runs RankScreen.step (.load (fun _ => none) true)
      [.response ConstHTTP.HTTP_OK ConstHTTP.RANK_LIST (some RankListView.oneRanked), .reload,
        .cell 0, .press 0 .btBest,
        .response ConstHTTP.HTTP_OK ConstHTTP.RANK_UPDATE_COMMENT
          (some (.obj [("isValid", .bool true)]))] s ∧
      RankScreen.step s (.cell 0) = .error .indexOutOfRange) ∧
    (∃ s t, Runs ShareScreen.step (.load true)
      [.response ConstHTTP.HTTP_OK ConstHTTP.BUCKET_LIST (some (oneShared 1 "travel")), .reload,
        .cell 0, .category .btCategory1 true,
        .response ConstHTTP.HTTP_OK ConstHTTP.BUCKET_LIST (some (oneShared 2 "marry"))] s ∧
      (s.table.shown 0).map (fun c => c.2.mIdx) = some 1 ∧
      ShareScreen.step s (.tap 0) = .ok t ∧
      t.view.presented.map (fun d => d.mIdx) = [2]) := by
  constructor
  · exact ⟨_, .cons rfl (.cons rfl (.cons rfl (.cons rfl (.cons rfl (.nil _))))), rfl⟩
  · exact ⟨_, _, .cons rfl (.cons rfl (.cons rfl (.cons rfl (.cons rfl (.nil _))))), rfl, rfl, rfl⟩

end KBucket
