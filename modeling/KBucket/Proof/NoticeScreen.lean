import Mathlib.Algebra.Ring.Parity
import KBucket.NoticeScreen
import KBucket.Proof.Answer

/-!
# A row is as expanded as it was tapped

Whatever happens on the screen of the notices, a cell on display shows the notice of its row, all
of it, and is expanded when the row is among those that are (`Fits`). A row is among them when it
was tapped an odd number of times while it was on display (`expanded_iff_odd`): leaving the
display, coming back on another cell and reloading change nothing about it. What becomes of the
one request of the screen is the only thing that can trap (`runs_iff_readable`).

The answer may be anything, and so may the order of reloads, displays and taps. What is asked for
in `runs_iff_readable` is the first thing that becomes of the request, because there is only one
request: later answers and later losses are events for which nothing waits.
-/

namespace KBucket

open Lib

namespace NoticeView

/-- The cell of a row, with every outlet. -/
def Displays (v : NoticeView) (isExpanded : Bool) (row : Nat) (content : NoticeCustomCell) :
    Prop :=
  ∃ notice, v.mList[row]? = some notice ∧ content =
    { lbNotice := notice.mContent, lbContents := notice.mContent, isExpanded
      imgHeightConstraint := if isExpanded then 128 else 0 }

theorem tableView_displays {v : NoticeView} (expandedRows : List Nat) {row : Nat}
    (hrow : row < v.numberOfRowsInSection) (cell : UITableViewCell NoticeCustomCell) :
    ∃ cell', v.tableView expandedRows row cell = .ok cell' ∧
      v.Displays (expandedRows.contains row) row cell'.content := by
  have hget : arrayGet v.mList row = .ok v.mList[row] := arrayGet_ofNat hrow
  have hcontent : v.cellForRowAt expandedRows row cell.content
      = .ok { lbNotice := v.mList[row].mContent, lbContents := v.mList[row].mContent
              isExpanded := expandedRows.contains row
              imgHeightConstraint := if expandedRows.contains row then 128 else 0 } := by
    unfold cellForRowAt NoticeCustomCell.setExpanded
    rw [hget]
    cases expandedRows.contains row <;> rfl
  exact ⟨_, bind_eq_ok.mpr ⟨_, hcontent, rfl⟩, _, List.getElem?_eq_getElem hrow, rfl⟩

theorem Displays.toggle {v : NoticeView} {isExpanded : Bool} {row : Nat}
    {content : NoticeCustomCell} (h : v.Displays isExpanded row content) :
    v.Displays (!isExpanded) row (content.setExpanded (!content.isExpanded)) := by
  obtain ⟨notice, hget, rfl⟩ := h
  refine ⟨notice, hget, ?_⟩
  cases isExpanded <;> rfl

/-- An answer asks for no other. -/
theorem onHttpReceive_requests [Platform] {v t : NoticeView} {type actionId : Int}
    {data : Option Json}
    (h : v.onHttpReceive type actionId data = .ok t) : t.requests = v.requests := by
  have hlisted : ∀ updates, (v.listed updates).requests = v.requests := fun updates => by
    unfold listed
    split <;> rfl
  rcases onHttpReceive_cases v type actionId data with ⟨rfl, rfl, fields, rfl, hvalid⟩ |
    ⟨-, hsame⟩ | ⟨e, -, herror⟩
  · rw [onHttpReceive_list hvalid] at h
    obtain ⟨items, -, h⟩ := bind_eq_ok.mp h
    obtain ⟨updates, -, h⟩ := bind_eq_ok.mp h
    cases h
    exact hlisted updates
  · cases h.symm.trans hsame
    rfl
  · cases h.symm.trans herror

end NoticeView

namespace NoticeScreen

variable {s t : NoticeScreen} {event : Event}

/-- The cells on display are those of the rows, and the table asks for no row that is not there.
    Until the answer has come there is no row. -/
structure Fits (s : NoticeScreen) : Prop where
  awaits : (∃ request, s.view.requests = [request] ∧ request.id = ConstHTTP.NOTICE_LIST ∧
    s.view.mList = []) ∨ s.view.requests = []
  rows : s.table.rows ≤ s.view.numberOfRowsInSection
  holds : s.table.Holds
    (fun row cell => s.view.Displays (s.expandedRows.contains row) row cell.content) fun _ => True

theorem fits_load : Fits load :=
  ⟨.inl ⟨_, rfl, rfl, rfl⟩, Nat.le_refl 0, .empty _ _⟩

/-- The rows that are expanded after a tap on `row`. -/
theorem contains_toggle (rows : List Nat) (row r : Nat) :
    (toggle rows row (rows.contains row)).contains r
      = if r = row then !rows.contains row else rows.contains r := by
  unfold toggle
  cases hrow : rows.contains row with
  | true =>
    rw [Bool.eq_iff_iff]
    by_cases hr : r = row
    · simp [hr]
    · simp [hr]
  | false =>
    by_cases hr : r = row
    · simp [hr]
    · simp [hr]

theorem fits_answer [Platform] {type : Int} {data : Option Json} (hfits : Fits s)
    (h : step s (.answer type data) = .ok t) : Fits t := by
  simp only [step] at h
  rcases hfits.awaits with ⟨request, hrequest, -, hlist⟩ | hrequest
  · rw [hrequest] at h
    obtain ⟨view, hview, h⟩ := bind_eq_ok.mp h
    cases h
    have hnone : s.table.rows = 0 := by
      have hrows := hfits.rows
      rw [NoticeView.numberOfRowsInSection, hlist] at hrows
      exact Nat.le_zero.mp hrows
    refine ⟨.inr (NoticeView.onHttpReceive_requests hview), ?_, hfits.holds.of_rows_eq_zero hnone⟩
    rw [hnone]
    exact Nat.zero_le _
  · rw [hrequest] at h
    cases h
    exact hfits

theorem fits_didSelectRowAt (hfits : Fits s) {row : Nat} {cell : UITableViewCell NoticeCustomCell}
    (hcell : s.table.at? row = some cell) : Fits (s.didSelectRowAt row cell) := by
  have hexpanded : cell.content.isExpanded = s.expandedRows.contains row := by
    obtain ⟨notice, -, heq⟩ := (hfits.holds.at? hcell).2
    rw [heq]
  refine ⟨hfits.awaits, hfits.rows, ?_⟩
  unfold didSelectRowAt
  rw [hexpanded]
  dsimp only
  refine hfits.holds.modify ?_ ?_
  · intro cell h
    rw [contains_toggle, if_pos rfl]
    exact h.toggle
  · intro r cell hr h
    rw [contains_toggle, if_neg hr]
    exact h

theorem step_lose [Platform] (h : step s .lose = .ok t) : t = s := by
  simp only [step] at h
  split at h
  · cases h
  · cases h
    rfl

theorem fits_step [Platform] (hfits : Fits s) (h : step s event = .ok t) : Fits t := by
  cases event with
  | answer type data => exact fits_answer hfits h
  | lose =>
    rw [step_lose h]
    exact hfits
  | reload =>
    simp only [step] at h
    split at h
    · cases h
      exact ⟨hfits.awaits, Nat.le_refl _, hfits.holds.reload (fun _ _ _ => trivial) _⟩
    · cases h
      exact hfits
  | cell row i =>
    simp only [step] at h
    split at h
    · next hrow =>
      obtain ⟨table, htable, hholds, hrows⟩ := hfits.holds.display { content := {} }
        trivial hrow.1 (fun cell _ => NoticeView.tableView_displays s.expandedRows
          (Nat.lt_of_lt_of_le hrow.1 hfits.rows) cell) i
      rw [htable] at h
      cases h
      exact ⟨hfits.awaits, hrows.symm ▸ hfits.rows, hholds⟩
    · cases h
      exact hfits
  | leave row =>
    cases h
    exact ⟨hfits.awaits, hfits.rows, hfits.holds.leave (fun _ _ _ => trivial) row⟩
  | select row =>
    simp only [step] at h
    split at h
    · next cell hcell =>
      cases h
      exact fits_didSelectRowAt hfits hcell
    · cases h
      exact hfits

/-! ## Taps -/

/-- The row that an event taps, where it is on display. -/
def tapped (s : NoticeScreen) : Event → Option Nat
  | .select row => (s.table.at? row).map fun _ => row
  | _ => none

/-- The rows that are expanded are those that were tapped an odd number of times. -/
def Follows (s : NoticeScreen) (taps : List Nat) : Prop :=
  Fits s ∧ ∀ row, s.expandedRows.contains row = decide (Odd (taps.count row))

theorem follows_step [Platform] {taps : List Nat} (hs : Follows s taps) (h : step s event = .ok t) :
    Follows t ((tapped s event).toList.foldl (fun taps row => taps ++ [row]) taps) := by
  obtain ⟨hfits, hcount⟩ := hs
  refine ⟨fits_step hfits h, ?_⟩
  cases event with
  | select row =>
    simp only [step] at h
    split at h
    · next cell hcell =>
      cases h
      have hexpanded : cell.content.isExpanded = s.expandedRows.contains row := by
        obtain ⟨notice, -, heq⟩ := (hfits.holds.at? hcell).2
        rw [heq]
      have htapped : tapped s (.select row) = some row := by rw [tapped, hcell]; rfl
      intro r
      rw [htapped]
      show (s.didSelectRowAt row cell).expandedRows.contains r
        = decide (Odd ((taps ++ [row]).count r))
      unfold didSelectRowAt
      rw [hexpanded]
      dsimp only
      rw [contains_toggle, List.count_append]
      by_cases hr : r = row
      · subst hr
        rw [if_pos rfl, hcount, List.count_singleton_self, ← decide_not]
        exact decide_eq_decide.mpr Nat.odd_add_one.symm
      · rw [if_neg hr, hcount, List.count_singleton, if_neg, Nat.add_zero]
        simpa using Ne.symm hr
    · next hcell =>
      cases h
      have htapped : tapped s (.select row) = none := by rw [tapped, hcell]; rfl
      rw [htapped]
      exact hcount
  | answer type data =>
    have hrows : t.expandedRows = s.expandedRows := by
      simp only [step] at h
      split at h
      · obtain ⟨view, -, h⟩ := bind_eq_ok.mp h
        cases h
        rfl
      · cases h
        rfl
    rw [hrows]
    exact hcount
  | lose =>
    rw [step_lose h]
    exact hcount
  | cell row i =>
    have hrows : t.expandedRows = s.expandedRows := by
      simp only [step] at h
      split at h
      · obtain ⟨table, -, h⟩ := bind_eq_ok.mp h
        cases h
        rfl
      · cases h
        rfl
    rw [hrows]
    exact hcount
  | reload =>
    simp only [step] at h
    split at h <;> (cases h; exact hcount)
  | leave row =>
    cases h
    exact hcount

/-- **A row on display shows its notice, and is expanded exactly when it was tapped an odd number
    of times**, whatever cells it was on and whatever reloads there were in between.

    The run is one that goes through; what ends one is said in `runs_iff_readable`. -/
theorem expanded_iff_odd [Platform] {events : List Event} (hrun : Runs step load events t)
    {row : Nat} {cell : UITableViewCell NoticeCustomCell} (hcell : t.table.at? row = some cell) :
    t.view.Displays (decide (Odd ((trace step tapped load events).count row))) row
      cell.content := by
  have hstart : Follows load [] := ⟨fits_load, fun _ => rfl⟩
  have hfollows := hrun.follows (R := Follows) (fun s e t taps hs h => follows_step hs h) hstart
  rw [List.foldl_append_eq_append, List.nil_append, ← List.flatMap_def,
    List.flatMap_singleton'] at hfollows
  obtain ⟨hfits, hcount⟩ := hfollows
  rw [← hcount]
  exact (hfits.holds.at? hcell).2

def twoNotices : Json :=
  .obj [("isValid", .bool true), ("updateVOList", .arr
    [.obj [("versionCode", .int 2), ("updateContent", .str "Photos")],
      .obj [("versionCode", .int 1), ("updateContent", .str "Hello")]])]

/-- The first row is tapped, goes, and comes back after the second has had its cell. -/
def backAgain : List Event :=
  [.answer ConstHTTP.HTTP_OK (some twoNotices), .reload, .cell 0 0, .select 0, .leave 0, .cell 1 0,
    .cell 0 0]

def expandedCell : UITableViewCell NoticeCustomCell where
  content :=
    { lbNotice := "Photos", lbContents := "Photos", isExpanded := true, imgHeightConstraint := 128 }
  selectionStyle := .none

theorem runs_backAgain :
    ∃ t, Runs step load backAgain t ∧ t.table.at? 0 = some expandedCell :=
  ⟨_, .cons rfl (.cons rfl (.cons rfl (.cons rfl (.cons rfl (.cons rfl (.single rfl)))))), rfl⟩

theorem expanded_iff_odd_backAgain : ∃ t, Runs step load backAgain t ∧
    t.table.at? 0 = some expandedCell ∧ t.view.Displays true 0 expandedCell.content := by
  obtain ⟨t, hrun, hcell⟩ := runs_backAgain
  have hshows := expanded_iff_odd hrun hcell
  have htaps : trace step tapped load backAgain = [0] := rfl
  rw [htaps, show decide (Odd ([0].count 0)) = true by decide] at hshows
  exact ⟨t, hrun, hcell, hshows⟩

/-! ## Traps -/

/-- What an event makes of the request: an answer, or nothing where it is lost. -/
def outcome? : Event → Option (Option (Int × Option Json))
  | .answer type data => some (some (type, data))
  | .lose => some none
  | _ => none

/-- An answer that can be read. -/
def Usable [Platform] : Option (Int × Option Json) → Prop
  | some (type, data) => Json.Readable NoticeView.listing type ConstHTTP.NOTICE_LIST data
  | none => False

/-- Nothing but the end of the request can trap, or be waited for. -/
theorem returns_of_no_outcome [Platform] (hfits : Fits s) (h : outcome? event = none) :
    ∃ t, step s event = .ok t ∧ t.view.requests = s.view.requests := by
  cases event with
  | answer type data => cases h
  | lose => cases h
  | reload =>
    simp only [step]
    split <;> exact ⟨_, rfl, rfl⟩
  | cell row i =>
    simp only [step]
    split
    · next hrow =>
      obtain ⟨table, htable, -, -⟩ := hfits.holds.display { content := {} }
        trivial hrow.1 (fun cell _ => NoticeView.tableView_displays s.expandedRows
          (Nat.lt_of_lt_of_le hrow.1 hfits.rows) cell) i
      rw [htable]
      exact ⟨_, rfl, rfl⟩
    · exact ⟨s, rfl, rfl⟩
  | leave row => exact ⟨_, rfl, rfl⟩
  | select row =>
    simp only [step]
    split <;> exact ⟨_, rfl, rfl⟩

/-- What becomes of the request in a run, if anything does. -/
abbrev Ends (events : List Event) (P : Option (Int × Option Json) → Prop) : Prop :=
  ∀ outcome, events.findSome? outcome? = some outcome → P outcome

theorem runs_of_answered [Platform] (hfits : Fits s) (hnone : s.view.requests = [])
    (events : List Event) :
    ∃ t, Runs step s events t := by
  induction events generalizing s with
  | nil => exact ⟨s, .nil s⟩
  | cons event events ih =>
    have hstep : ∃ t, step s event = .ok t ∧ t.view.requests = [] := by
      by_cases hevent : outcome? event = none
      · obtain ⟨t, hstep, hrequests⟩ := returns_of_no_outcome hfits hevent
        exact ⟨t, hstep, hrequests.trans hnone⟩
      · refine ⟨s, ?_, hnone⟩
        cases event with
        | answer type data => simp only [step, hnone]
        | lose => simp only [step, hnone]
        | _ => exact absurd rfl hevent
    obtain ⟨t, hstep, hrequests⟩ := hstep
    exact exists_runs_cons_iff.mpr ⟨t, hstep, ih (fits_step hfits hstep) hrequests⟩

/-- The end of the request that is awaited. -/
theorem returns_iff_usable [Platform] (hfits : Fits s) {request : HttpRequest}
    (hrequest : s.view.requests = [request]) (hid : request.id = ConstHTTP.NOTICE_LIST)
    {outcome : Option (Int × Option Json)} (houtcome : outcome? event = some outcome)
    (events : List Event) :
    (∃ t, step s event = .ok t ∧ ∃ u, Runs step t events u) ↔ Usable outcome := by
  cases event with
  | answer type data =>
    cases houtcome
    have hstep : step s (.answer type data) = (do
        let view ← { s.view with requests := [] }.onHttpReceive type ConstHTTP.NOTICE_LIST data
        return { s with view }) := by
      simp only [step, hrequest, hid]
    rw [Usable, ← NoticeView.onHttpReceive_returns_iff (v := { s.view with requests := [] })]
    constructor
    · intro h
      obtain ⟨t, ht, -⟩ := h
      rw [hstep] at ht
      obtain ⟨view, hview, -⟩ := bind_eq_ok.mp ht
      exact ⟨view, hview⟩
    · intro h
      obtain ⟨view, hview⟩ := h
      have ht : step s (.answer type data) = .ok { s with view } :=
        hstep.trans (bind_eq_ok.mpr ⟨view, hview, rfl⟩)
      refine ⟨_, ht, runs_of_answered (fits_step hfits ht) ?_ events⟩
      exact NoticeView.onHttpReceive_requests hview
  | lose =>
    cases houtcome
    refine iff_of_false ?_ not_false
    rintro ⟨t, ht, -⟩
    simp only [step, hrequest] at ht
    cases ht
  | _ => cases houtcome

theorem runs_iff_of_awaiting [Platform] (hfits : Fits s) {request : HttpRequest}
    (hrequest : s.view.requests = [request]) (hid : request.id = ConstHTTP.NOTICE_LIST)
    (events : List Event) : (∃ t, Runs step s events t) ↔ Ends events Usable := by
  induction events generalizing s with
  | nil => exact iff_of_true ⟨s, .nil s⟩ fun _ h => nomatch h
  | cons event events ih =>
    rw [exists_runs_cons_iff]
    cases hevent : outcome? event with
    | none =>
      obtain ⟨t, hstep, hrequests⟩ := returns_of_no_outcome hfits hevent
      have hrest := ih (fits_step hfits hstep) (hrequests.trans hrequest)
      rw [Ends, List.findSome?_cons, hevent]
      refine Iff.trans ?_ hrest
      constructor
      · intro h
        obtain ⟨t', hstep', hrun⟩ := h
        cases hstep.symm.trans hstep'
        exact hrun
      · intro h
        exact ⟨t, hstep, h⟩
    | some outcome =>
      rw [returns_iff_usable hfits hrequest hid hevent events, Ends, List.findSome?_cons, hevent]
      exact ⟨fun h _ heq => Option.some.inj heq ▸ h, fun h => h outcome rfl⟩

/-- **The screen of the notices traps through nothing but its one request**: a run ends without a
    trap exactly when the first thing that becomes of the request, if anything does, is an answer
    that can be read. It is not lost, and of the order of reloads, displays and taps around it
    nothing is asked. What comes after that first answer is not read any more. -/
theorem runs_iff_readable [Platform] (events : List Event) :
    (∃ t, Runs step load events t) ↔ Ends events Usable :=
  runs_iff_of_awaiting fits_load rfl rfl events

end NoticeScreen
end KBucket
