import KBucket.Proof.Ledger
import KBucket.TouchScreen

/-!
# The user acts on what can be read

A cell carries a number or a text, and is used again for other rows. Whatever happens on a
screen, the cells on display show the texts of the rows whose numbers they carry (`Shows`), so a
press on a cell does to the ledger what its text says (`meaning`), and no press is one on a row
that is not there: of the actions that trap in `App.Crashes` two are left.

Nothing is assumed about the table view: it may ask for cells in any order, keep some on display
and hand them out again. The two actions that are left are about texts and not about rows, and
the ledger refuses them as well.

`hdreams` is there for the list of suggestions, which is a localized text and not the user's. As
everywhere, what is looked up by a predicate has to be plain.
-/

namespace KBucket

open Lib

variable {Image : Type} {phone : Handset Image} {occasion : Occasion} {row i : Nat}

theorem intOfString?_row [Platform] (hfits : FitsInt row) :
    intOfString? (toString row) = some (row : Int) := by
  have hcast : toString (row : Int) = toString row := rfl
  rw [← hcast]
  exact intOfString?_toString hfits

theorem App.row?_toString [Platform] {rows : List String} {text : String} (hfits : FitsInt row)
    (h : rows[row]? = some text) : App.row? rows (toString row) = some text := by
  rw [App.row?, intOfString?_row hfits, Option.bind_some, if_pos (Int.natCast_nonneg row),
    Int.toNat_natCast, h]

theorem UITableViewCell.setBackColor_content {Content : Type} (w : Nat) (mBackColor : String)
    (cell : UITableViewCell Content) : (cell.setBackColor w mBackColor).content = cell.content := by
  unfold UITableViewCell.setBackColor
  split <;> rfl

/-! ## One cell -/

/-- A cell of row `row` carries its number, and its text is the one in the list. -/
structure Numbers [Platform] (texts : List String) (row : Nat) (text mData : String) : Prop where
  fits : FitsInt row
  mData : mData = toString row
  text : texts[row]? = some text

theorem Numbers.row? [Platform] {texts : List String} {text mData : String}
    (h : Numbers texts row text mData) : App.row? texts mData = some text := by
  rw [h.mData]
  exact App.row?_toString h.fits h.text

theorem Numbers.openRow [Platform] {texts : List String} {text mData : String} (today : String)
    (h : Numbers texts row text mData) : App.openRow today texts mData = .open today text := by
  rw [App.openRow, h.row?]

theorem Numbers.deleteRow [Platform] {texts : List String} {text mData : String}
    (h : Numbers texts row text mData) : App.deleteRow texts mData = .delete text := by
  have hrow := h.row?
  rw [App.deleteRow, if_neg, hrow]
  intro hnone
  rw [App.row?, hnone] at hrow
  cases hrow

namespace WriteView

/-- A cell of the to-do list. -/
abbrev Labels [Platform] (v : WriteView) (row : Nat)
    (cell : UITableViewCell FirstCustomCell) : Prop :=
  cell.content.btEditFullIsHidden = true ∧
    Numbers v.mDataList row cell.content.text cell.content.mData

/-- The cells of the to-do list have one field. -/
abbrev OneField (cell : UITableViewCell FirstCustomCell) : Prop :=
  cell.content.btEditFullIsHidden = true

theorem tableView_labels [Platform] {v : WriteView} {w : Nat} {mBackColor : String}
    (hfits : FitsInt row)
    (hrow : row < v.numberOfRowsInSection) {cell : UITableViewCell FirstCustomCell}
    (hcell : OneField cell) :
    ∃ cell', v.tableView w mBackColor row cell = .ok cell' ∧ v.Labels row cell' := by
  have hget : arrayGet v.mDataList row = .ok v.mDataList[row] := arrayGet_ofNat hrow
  have hcontent : v.cellForRowAt row cell.content
      = .ok { cell.content with btEdt := v.mDataList[row], mData := toString row } := by
    unfold cellForRowAt
    rw [hget]
    rfl
  refine ⟨_, bind_eq_ok.mpr ⟨_, hcontent, rfl⟩, ?_⟩
  unfold Labels
  rw [UITableViewCell.setBackColor_content]
  refine ⟨hcell, hfits, rfl, ?_⟩
  show v.mDataList[row]? = some (if cell.content.btEditFullIsHidden then _ else _)
  rw [hcell]
  exact List.getElem?_eq_getElem hrow

end WriteView

namespace BucketListView

/-- A cell of the achieved buckets. -/
abbrev Labels [Platform] (v : BucketListView) (row : Nat)
    (cell : UITableViewCell (BucketCustomCell Image)) : Prop :=
  Numbers (v.mDataList.map PostData.m_contents) row cell.content.mEtContent cell.content.mData

theorem tableView_labels [Platform] {v : BucketListView} {codec : ImageCodec Image}
    {documents : Documents}
    {w : Nat} {mBackColor : String} (hfits : FitsInt row) (hrow : row < v.numberOfRowsInSection)
    (cell : UITableViewCell (BucketCustomCell Image)) :
    ∃ cell', v.tableView codec documents w mBackColor row cell = .ok cell' ∧
      v.Labels row cell' := by
  have hget : arrayGet v.mDataList row = .ok v.mDataList[row] := arrayGet_ofNat hrow
  have hcontent : ∃ content, v.cellForRowAt codec documents row cell.content = .ok content ∧
      content.mEtContent = v.mDataList[row].m_contents ∧ content.mData = toString row := by
    unfold cellForRowAt
    rw [hget]
    dsimp only [ok_bind]
    split <;> exact ⟨_, rfl, rfl, rfl⟩
  obtain ⟨content, hok, htext, hdata⟩ := hcontent
  refine ⟨_, bind_eq_ok.mpr ⟨content, hok, rfl⟩, ?_⟩
  unfold Labels
  rw [UITableViewCell.setBackColor_content]
  refine ⟨hfits, hdata, ?_⟩
  rw [List.getElem?_map, List.getElem?_eq_getElem hrow]
  exact congrArg some htext.symm

end BucketListView

namespace AddBucketList

/-- A cell of the suggestions: it carries its text, which is read in one field or the other. -/
structure Labels (v : AddBucketList) (row : Nat) (cell : UITableViewCell FirstCustomCell) :
    Prop where
  mData : v.mDataList[row]? = some cell.content.mData
  text : cell.content.text = cell.content.mData
  isHidden : ∀ button, cell.content.isHidden button = !v.mbVisible

theorem tableView_labels {v : AddBucketList} {w : Nat} {mBackColor : String}
    (hrow : row < v.numberOfRowsInSection) (cell : UITableViewCell FirstCustomCell) :
    ∃ cell', v.tableView w mBackColor row cell = .ok cell' ∧ v.Labels row cell' := by
  have hget : arrayGet v.mDataList row = .ok v.mDataList[row] := arrayGet_ofNat hrow
  have hcontent : ∃ content, v.cellForRowAt row cell.content = .ok content ∧
      content.mData = v.mDataList[row] ∧ content.text = content.mData ∧
      ∀ button, content.isHidden button = !v.mbVisible := by
    unfold cellForRowAt
    rw [hget]
    dsimp only [ok_bind]
    cases v.mbVisible with
    | true => exact ⟨_, rfl, rfl, rfl, fun button => by cases button <;> rfl⟩
    | false => exact ⟨_, rfl, rfl, rfl, fun button => by cases button <;> rfl⟩
  obtain ⟨content, hok, hdata, htext, hhidden⟩ := hcontent
  refine ⟨_, bind_eq_ok.mpr ⟨content, hok, rfl⟩, ?_⟩
  constructor
  · rw [UITableViewCell.setBackColor_content]
    show _ = some content.mData
    rw [hdata]
    exact List.getElem?_eq_getElem hrow
  · rw [UITableViewCell.setBackColor_content]
    exact htext
  · rw [UITableViewCell.setBackColor_content]
    exact hhidden

end AddBucketList

namespace TouchScreen

variable {s t : TouchScreen Image} {event : Event}

/-- The cells on display are those of the rows of the list, and the table has as many rows. -/
def Shows [Platform] : TouchScreen Image → Prop
  | .write v table => table.rows = v.numberOfRowsInSection ∧ table.Holds v.Labels WriteView.OneField
  | .bucketList v table =>
    table.rows = v.numberOfRowsInSection ∧ table.Holds v.Labels fun _ => True
  | .addBucket v table =>
    table.rows = v.numberOfRowsInSection ∧ table.Holds v.Labels (fun _ => True) ∧
      ∀ text ∈ v.mDataList, Predicate.Plain text
  | .plain _ => True

structure Fits [Platform] (s : TouchScreen Image) : Prop where
  app : App.Fits s.app
  shows : s.Shows

/-- The text that can be read on a row that is on display. -/
def seen (s : TouchScreen Image) (row : Nat) : Option String :=
  match s with
  | .write _ table | .addBucket _ table => (table.at? row).map fun cell => cell.content.text
  | .bucketList _ table => (table.at? row).map fun cell => cell.content.mEtContent
  | .plain _ => none

/-- An action on the text that is read on a row. -/
def onSeen (s : TouchScreen Image) (row : Nat) (f : String → Ledger.Event) : Ledger.Event :=
  (s.seen row).elim .idle f

/-- What an action is in the ledger: on a row, it is about the text that is read there. -/
def meaning [Platform] (s : TouchScreen Image) : Occasion × Event → Ledger.Event
  | (occasion, event) =>
    match s, event with
    | _, .act event => if event.isOfRow then .idle else App.label s.app (occasion.today, event)
    | .write _ _, .press row .btMod => s.onSeen row (.open occasion.today)
    | .write _ _, .press row .btDel => s.onSeen row .delete
    | .bucketList _ _, .detail row | .bucketList _ _, .select row =>
      s.onSeen row (.open occasion.today)
    | .addBucket v _, .press row .btMod =>
      if v.mbVisible then s.onSeen row .suggest else .idle
    | .addBucket v _, .press row .btDel =>
      if v.mbVisible then s.onSeen row .withdraw else .idle
    | _, _ => .idle

/-! ## What a control sends -/

/-- The texts that an action brings with it can be quoted. -/
def Quotable : Occasion × Event → Prop
  | (_, .act event) => App.Quotable event
  | _ => True

theorem onSeen_of_seen {text : String} (h : s.seen row = some text) (f : String → Ledger.Event) :
    s.onSeen row f = f text := by
  rw [onSeen, h]
  rfl

/-- **What a control sends is, in the ledger, what is read there.** -/
theorem label_of_control [Platform] (hfits : Fits s) (hquote : Quotable (occasion, event))
    {sent : App.Event} (h : s.control event = some sent) :
    App.label s.app (occasion.today, sent) = s.meaning (occasion, event) ∧ App.Quotable sent := by
  cases event with
  | act event =>
    have h : (if event.isOfRow then none else some event) = some sent := by cases s <;> exact h
    have hmeaning : s.meaning (occasion, .act event)
        = if event.isOfRow then .idle else App.label s.app (occasion.today, event) := by
      cases s <;> rfl
    split at h
    · cases h
    · next hrow =>
      cases h
      rw [hmeaning, if_neg hrow]
      exact ⟨rfl, hquote⟩
  | press row button =>
    cases s with
    | write v table =>
      have hshows := hfits.shows.2
      cases hcell : table.at? row with
      | none => cases button <;> (rw [control, hcell] at h; cases h)
      | some cell =>
        have hseen : (write v table : TouchScreen Image).seen row = some cell.content.text := by
          rw [seen, hcell]
          rfl
        have hnumbers := (hshows.at? hcell).2.2
        cases button with
        | btMod =>
          rw [control, hcell] at h
          cases h
          exact ⟨(hnumbers.openRow _).trans (onSeen_of_seen hseen _).symm, trivial⟩
        | btDel =>
          rw [control, hcell] at h
          cases h
          exact ⟨hnumbers.deleteRow.trans (onSeen_of_seen hseen _).symm, trivial⟩
    | addBucket v table =>
      have hshows := hfits.shows.2.1
      cases hcell : table.at? row with
      | none => rw [control, hcell] at h; cases h
      | some cell =>
        have hseen : (addBucket v table : TouchScreen Image).seen row
            = some cell.content.text := by
          rw [seen, hcell]
          rfl
        have hlabels := (hshows.at? hcell).2
        have hplain : Predicate.Plain cell.content.mData :=
          hfits.shows.2.2 _ (List.mem_of_getElem? hlabels.mData)
        rw [control, hcell, Option.bind_some, hlabels.isHidden] at h
        cases hvisible : v.mbVisible with
        | false => rw [hvisible] at h; cases h
        | true =>
          rw [hvisible] at h
          cases button with
          | btMod =>
            cases h
            refine ⟨?_, hplain⟩
            show Ledger.Event.suggest _ = if v.mbVisible then _ else _
            rw [if_pos hvisible, onSeen_of_seen hseen, hlabels.text]
          | btDel =>
            cases h
            refine ⟨?_, hplain⟩
            show Ledger.Event.withdraw _ = if v.mbVisible then _ else _
            rw [if_pos hvisible, onSeen_of_seen hseen, hlabels.text]
    | bucketList v table => cases button <;> cases h
    | plain app => cases button <;> cases h
  | detail row =>
    cases s with
    | bucketList v table =>
      have hshows := hfits.shows.2
      cases hcell : table.at? row with
      | none => rw [control, hcell] at h; cases h
      | some cell =>
        have hseen : (bucketList v table).seen row = some cell.content.mEtContent := by
          rw [seen, hcell]
          rfl
        rw [control, hcell] at h
        cases h
        exact ⟨((hshows.at? hcell).2.openRow _).trans (onSeen_of_seen hseen _).symm, trivial⟩
    | _ => cases h
  | _ => cases s <;> cases h

/-- A control that sends nothing stands for nothing, a tap on a row aside. -/
theorem meaning_of_silent [Platform] (hfits : Fits s) (h : s.control event = none)
    (hselect : ∀ row, event ≠ .select row) : s.meaning (occasion, event) = .idle := by
  have hnone : ∀ {row : Nat} {f : String → Ledger.Event}, s.seen row = none →
      s.onSeen row f = .idle := fun hseen => by rw [onSeen, hseen]; rfl
  cases event with
  | act event =>
    have h : (if event.isOfRow then none else some event) = none := by cases s <;> exact h
    have hmeaning : s.meaning (occasion, .act event)
        = if event.isOfRow then .idle else App.label s.app (occasion.today, event) := by
      cases s <;> rfl
    split at h
    · next hrow => rw [hmeaning, if_pos hrow]
    · cases h
  | press row button =>
    cases s with
    | write v table =>
      cases hcell : table.at? row with
      | none =>
        have hseen : (write v table : TouchScreen Image).seen row = none := by
          rw [seen, hcell]
          rfl
        cases button <;> exact hnone hseen
      | some cell => cases button <;> (rw [control, hcell] at h; cases h)
    | addBucket v table =>
      have hidle : ∀ f : String → Ledger.Event,
          (if v.mbVisible then onSeen (addBucket v table : TouchScreen Image) row f else .idle)
            = .idle := by
        intro f
        split
        · next hvisible =>
          cases hcell : table.at? row with
          | none => exact hnone (by rw [seen, hcell]; rfl)
          | some cell =>
            have hlabels := (hfits.shows.2.1.at? hcell).2
            rw [control, hcell, Option.bind_some, hlabels.isHidden, hvisible] at h
            cases button <;> cases h
        · rfl
      cases button <;> exact hidle _
    | bucketList v table | plain app => cases button <;> rfl
  | detail row =>
    cases s with
    | bucketList v table =>
      cases hcell : table.at? row with
      | none => exact hnone (by rw [seen, hcell]; rfl)
      | some cell => rw [control, hcell] at h; cases h
    | _ => rfl
  | select row => exact absurd rfl (hselect row)
  | cell row i | leave row | listAdd => cases s <;> rfl

/-! ## After a handler -/

/-- What a text is split into has no other characters than the text. -/
theorem mem_of_mem_splitOn {c separator : Char} {cs part : List Char}
    (hpart : part ∈ cs.splitOn separator) (hc : c ∈ part) : c ∈ cs := by
  induction cs generalizing part with
  | nil =>
    rw [List.splitOn_nil, List.mem_singleton] at hpart
    subst hpart
    cases hc
  | cons d ds ih =>
    rw [List.splitOn_cons_eq_if_modifyHead] at hpart
    obtain ⟨p, ps, hsplit⟩ := List.exists_cons_of_ne_nil (List.splitOn_ne_nil separator ds)
    rw [hsplit] at hpart ih
    split at hpart
    · rcases List.mem_cons.mp hpart with rfl | hpart
      · cases hc
      · exact List.mem_cons_of_mem _ (ih hpart hc)
    · rcases List.mem_cons.mp hpart with rfl | hpart
      · rcases List.mem_cons.mp hc with rfl | hc
        · exact List.mem_cons_self
        · exact List.mem_cons_of_mem _ (ih List.mem_cons_self hc)
      · exact List.mem_cons_of_mem _ (ih (List.mem_cons_of_mem _ hpart) hc)

theorem plain_of_mem_split {text part : String} {separator : Char}
    (htext : Predicate.Plain text) (h : part ∈ split text separator) : Predicate.Plain part := by
  obtain ⟨cs, hcs, rfl⟩ := List.mem_map.mp h
  intro c hc
  rw [String.toList_ofList] at hc
  exact htext c (mem_of_mem_splitOn (List.mem_filter.mp hcs).1 hc)

/-- A screen that is presented has nothing on display. -/
theorem fits_arrive [Platform] (hdreams : Predicate.Plain phone.dream100) {app : App}
    (h : App.Fits app) :
    Fits (arrive phone app) ∧ (arrive phone app).app = app := by
  cases app with
  | write v => exact ⟨⟨h, rfl, (CellTable.Holds.empty v.Labels _).reload (fun _ _ h => h.1) _⟩, rfl⟩
  | bucketList v =>
    exact ⟨⟨h, rfl, (CellTable.Holds.empty v.Labels _).reload (fun _ _ _ => trivial) _⟩, rfl⟩
  | addBucket view =>
    let v := AddBucketList.setListData phone.dream100 { view }
    refine ⟨⟨h, rfl, (CellTable.Holds.empty v.Labels _).reload (fun _ _ _ => trivial) _, ?_⟩, rfl⟩
    intro text htext
    exact plain_of_mem_split hdreams htext
  | _ => exact ⟨⟨h, trivial⟩, rfl⟩

/-- A row that is opened is left for its form. -/
theorem not_openRow [Platform] {ledger ledger' : Ledger} {screen : Ledger.Screen}
    {rows : List String} {data today : String} (hscreen : screen = .todo ∨ screen = .achieved) :
    Ledger.step (App.same phone.nfc) ⟨ledger, screen⟩ (App.openRow today rows data)
      ≠ some ⟨ledger', screen⟩ := by
  unfold App.openRow
  rcases hscreen with rfl | rfl
  · cases App.row? rows data with
    | none => exact fun h => nomatch h
    | some text => exact fun h => nomatch h
  · cases App.row? rows data with
    | none => exact fun h => nomatch h
    | some text => exact fun h => nomatch h

/-- A handler of the to-do screen after which the table is not reloaded has left the list. -/
theorem mDataList_of_not_reloads [Platform] {v v' : WriteView} {sent : App.Event} {today : String}
    (hfits : App.Fits (.write v))
    (h : App.step phone.nfc (.write v) (today, sent) = .ok (.write v'))
    (hreloads : reloads v v' sent = false) : v'.mDataList = v.mDataList := by
  have hsync : WriteView.Synced v := hfits.screen
  cases sent with
  | write event =>
    obtain ⟨u, hstep, hu⟩ := map_eq_ok.mp h
    cases hu
    cases event with
    | rowDelete data =>
      have hlength : ¬ v'.mDataList.length < v.mDataList.length := of_decide_eq_false hreloads
      cases hi : intOfString? data with
      | none =>
        have hnone := WriteView.rowDelete_notInt (v := v) hi
        cases hstep.symm.trans hnone
      | some i =>
        by_cases hrange : 0 ≤ i ∧ i < v.mDataList.length
        · have hlt : i.toNat < v.mDataList.length := by omega
          have hget := List.getElem?_eq_getElem hlt
          have hdelete := WriteView.rowDelete_inRange hi hrange hget
            (hfits.plain _ (hsync.mem_keys (List.getElem_mem hlt)))
          cases hstep.symm.trans hdelete
          rw [List.length_eraseIdx_of_lt hlt] at hlength
          omega
        · cases hstep.symm.trans (WriteView.rowDelete_outOfRange (v := v) hi hrange)
          rfl
    | _ => cases hreloads
  | rowMod data =>
    cases @App.matches_rowMod phone.nfc today _ v hfits data with
    | ok t ht _ hspec =>
      cases h.symm.trans ht
      exact absurd hspec (not_openRow (.inl rfl))
    | trap x hx _ => cases h.symm.trans hx
  | _ => cases h <;> rfl

/-- What is done to the achieved buckets leaves the screen, or the list as it is. -/
theorem bucketList_same [Platform] {v v' : BucketListView} {sent : App.Event} {today : String}
    (hfits : App.Fits (.bucketList v))
    (h : App.step phone.nfc (.bucketList v) (today, sent) = .ok (.bucketList v')) : v' = v := by
  cases sent with
  | rowDetail data =>
    cases @App.matches_rowDetail phone.nfc today _ v hfits data with
    | ok t ht _ hspec =>
      cases h.symm.trans ht
      exact absurd hspec (not_openRow (.inr rfl))
    | trap x hx _ => cases h.symm.trans hx
  | _ => cases h <;> rfl

/-- **After a handler the cells on display are again those of the rows of the list.** -/
theorem fits_handled [Platform] (hdreams : Predicate.Plain phone.dream100) (hfits : Fits s)
    {today : String} {sent : App.Event} {app' : App}
    (h : App.step phone.nfc s.app (today, sent) = .ok app') (happ : App.Fits app') :
    Fits (s.handled phone sent app') ∧ (s.handled phone sent app').app = app' := by
  cases s with
  | write v table =>
    cases app' with
    | write v' =>
      refine ⟨⟨happ, ?_⟩, rfl⟩
      obtain ⟨hrows, hholds⟩ := hfits.shows
      by_cases hreloads : reloads v v' sent = true
      · rw [handled, if_pos hreloads]
        exact ⟨rfl, hholds.reload (fun _ _ h => h.1) _⟩
      · have hlist := mDataList_of_not_reloads hfits.app h (Bool.eq_false_iff.mpr hreloads)
        rw [handled, if_neg hreloads]
        refine ⟨?_, hholds.mono fun row cell h => ?_⟩
        · rw [hrows, WriteView.numberOfRowsInSection, WriteView.numberOfRowsInSection, hlist]
        · exact ⟨h.1, hlist ▸ h.2⟩
    | _ => exact fits_arrive hdreams happ
  | bucketList v table =>
    cases app' with
    | bucketList v' =>
      have hsame := bucketList_same hfits.app h
      subst hsame
      exact ⟨⟨happ, hfits.shows⟩, rfl⟩
    | _ => exact fits_arrive hdreams happ
  | addBucket v table =>
    cases app' with
    | addBucket view =>
      obtain ⟨hrows, hholds, hplain⟩ := hfits.shows
      refine ⟨⟨happ, hrows, hholds.mono fun row cell h => ?_, hplain⟩, rfl⟩
      exact ⟨h.mData, h.text, h.isHidden⟩
    | _ => exact fits_arrive hdreams happ
  | plain app => cases app' <;> exact fits_arrive hdreams happ

/-! ## What the table does by itself -/

/-- A row that comes on display has a cell of the list. -/
theorem display_fits [Platform] (hfits : Fits s) (row i : Nat) :
    ∃ t, s.display phone occasion row i = .ok t ∧ Fits t ∧ t.app = s.app := by
  cases s with
  | write v table =>
    obtain ⟨hrows, hholds⟩ := hfits.shows
    unfold display
    dsimp only
    split
    · next hrow =>
      have hlt : row < v.numberOfRowsInSection := hrows ▸ hrow.1
      obtain ⟨table', htable, hholds', hrows'⟩ := hholds.display { content := {} } rfl
        hrow.1 (fun cell hcell => WriteView.tableView_labels hrow.2.1 hlt hcell) i
      rw [htable]
      exact ⟨_, rfl, ⟨hfits.app, hrows'.trans hrows, hholds'⟩, rfl⟩
    · exact ⟨_, rfl, hfits, rfl⟩
  | bucketList v table =>
    obtain ⟨hrows, hholds⟩ := hfits.shows
    unfold display
    dsimp only
    split
    · next hrow =>
      have hlt : row < v.numberOfRowsInSection := hrows ▸ hrow.1
      obtain ⟨table', htable, hholds', hrows'⟩ := hholds.display { content := {} }
        trivial hrow.1 (fun cell _ => BucketListView.tableView_labels hrow.2.1 hlt cell) i
      rw [htable]
      exact ⟨_, rfl, ⟨hfits.app, hrows'.trans hrows, hholds'⟩, rfl⟩
    · exact ⟨_, rfl, hfits, rfl⟩
  | addBucket v table =>
    obtain ⟨hrows, hholds, hplain⟩ := hfits.shows
    unfold display
    dsimp only
    split
    · next hrow =>
      have hlt : row < v.numberOfRowsInSection := hrows ▸ hrow.1
      obtain ⟨table', htable, hholds', hrows'⟩ := hholds.display { content := {} }
        trivial hrow.1 (fun cell _ => AddBucketList.tableView_labels hlt cell) i
      rw [htable]
      have htitle : ∃ title, v.setButtonTitle = { v with btListAdd := title } := by
        unfold AddBucketList.setButtonTitle
        split <;> exact ⟨_, rfl⟩
      obtain ⟨title, htitle⟩ := htitle
      rw [htitle]
      refine ⟨_, rfl, ⟨hfits.app, hrows'.trans hrows, hholds'.mono fun row cell h => ?_, hplain⟩,
        rfl⟩
      exact ⟨h.mData, h.text, h.isHidden⟩
    · exact ⟨_, rfl, hfits, rfl⟩
  | plain app => exact ⟨_, rfl, hfits, rfl⟩

theorem leave_fits [Platform] (hfits : Fits s) (row : Nat) :
    Fits (s.leave row) ∧ (s.leave row).app = s.app := by
  cases s with
  | write v table =>
    obtain ⟨hrows, hholds⟩ := hfits.shows
    exact ⟨⟨hfits.app, hrows, hholds.leave (fun _ _ h => h.1) row⟩, rfl⟩
  | bucketList v table =>
    obtain ⟨hrows, hholds⟩ := hfits.shows
    exact ⟨⟨hfits.app, hrows, hholds.leave (fun _ _ _ => trivial) row⟩, rfl⟩
  | addBucket v table =>
    obtain ⟨hrows, hholds, hplain⟩ := hfits.shows
    exact ⟨⟨hfits.app, hrows, hholds.leave (fun _ _ _ => trivial) row, hplain⟩, rfl⟩
  | plain app => exact ⟨hfits, rfl⟩

/-- The suggestions are displayed anew when their buttons are hidden or shown. -/
theorem listAdd_fits [Platform] (hfits : Fits s) : Fits s.listAdd ∧ s.listAdd.app = s.app := by
  cases s with
  | addBucket v table =>
    obtain ⟨hrows, hholds, hplain⟩ := hfits.shows
    have hclick : ∃ title, v.onClickListAdd
        = { v with mbVisible := !v.mbVisible, btListAdd := title } := by
      unfold AddBucketList.onClickListAdd AddBucketList.setButtonTitle
      split <;> exact ⟨_, rfl⟩
    obtain ⟨title, hclick⟩ := hclick
    rw [listAdd, hclick]
    exact ⟨⟨hfits.app, rfl, hholds.reload (fun _ _ _ => trivial) _, hplain⟩, rfl⟩
  | _ => exact ⟨hfits, rfl⟩

/-! ## Every step -/

def abs (s : TouchScreen Image) : Ledger.State := s.app.abs

/-- A handler of the app is a step of the ledger. -/
theorem matches_handled [Platform] (hdreams : Predicate.Plain phone.dream100) (hfits : Fits s)
    {sent : App.Event} (hquote : App.Quotable sent) :
    Matches Fits abs
      (s.app.step phone.nfc (occasion.today, sent) >>= fun app => .ok (s.handled phone sent app))
      (Ledger.step (App.same phone.nfc) s.abs (App.label s.app (occasion.today, sent))) := by
  cases @App.matches_step phone.nfc occasion.today _ s.app sent hfits.app hquote with
  | ok app' hstep happ hspec =>
    obtain ⟨hfits', happ'⟩ := fits_handled hdreams hfits hstep happ
    refine .ok _ (bind_eq_ok.mpr ⟨app', hstep, rfl⟩) hfits' ?_
    show _ = some (s.handled phone sent app').app.abs
    rw [happ']
    exact hspec
  | trap x hstep hspec => exact .trap x (by rw [hstep]; rfl) hspec

/-- What leaves the app alone is nothing in the ledger. -/
theorem matches_idle [Platform] (hfits : Fits t) (happ : t.app = s.app) :
    Matches Fits abs (.ok t : Except Trap (TouchScreen Image))
      (Ledger.step (App.same phone.nfc) s.abs .idle) := by
  refine .ok t rfl hfits ?_
  rw [Ledger.step_idle, abs, abs, happ]

/-- A tap on a row opens what its button opens. -/
theorem select_eq [Platform] {v : BucketListView} {table : BucketTable Image}
    {cell : UITableViewCell (BucketCustomCell Image)} (hcell : table.at? row = some cell)
    (hfits : FitsInt row) (today : String) :
    (bucketList v table).select phone today row =
      (App.bucketList v).step phone.nfc (today, .rowDetail (toString row)) >>= fun app =>
        .ok ((bucketList v table).handled phone (.rowDetail (toString row)) app) := by
  have hreceive : v.receiveEventFromViewItem 0 (toString row) = v.changeDetailView row := by
    rw [BucketListView.receiveEventFromViewItem, if_pos rfl, intOfString?_row hfits]
    rfl
  rw [select, hcell]
  show _ = (v.receiveEventFromViewItem 0 (toString row) >>= _) >>= _
  rw [hreceive, bind_assoc]
  rfl

theorem matches_select [Platform] (hdreams : Predicate.Plain phone.dream100) (hfits : Fits s)
    (row : Nat) :
    Matches Fits abs (s.select phone occasion.today row)
      (Ledger.step (App.same phone.nfc) s.abs (s.meaning (occasion, .select row))) := by
  cases s with
  | bucketList v table =>
    cases hcell : table.at? row with
    | none =>
      have hseen : (bucketList v table).seen row = none := by rw [seen, hcell]; rfl
      have hidle : (bucketList v table).meaning (occasion, .select row) = .idle := by
        show onSeen _ _ _ = _
        rw [onSeen, hseen]
        rfl
      rw [select, hcell, hidle]
      exact matches_idle hfits rfl
    | some cell =>
      have hnumbers := (hfits.shows.2.at? hcell).2
      have hseen : (bucketList v table).seen row = some cell.content.mEtContent := by
        rw [seen, hcell]
        rfl
      have hlabel : App.label (.bucketList v) (occasion.today, .rowDetail (toString row))
          = (bucketList v table).meaning (occasion, .select row) := by
        rw [← hnumbers.mData]
        exact (hnumbers.openRow _).trans (onSeen_of_seen hseen _).symm
      rw [← hlabel, select_eq hcell hnumbers.fits]
      exact matches_handled hdreams hfits trivial
  | write v table | addBucket v table | plain app => exact matches_idle hfits rfl

/-- **One touch is one action of the ledger, on the text that is read there.** -/
theorem matches_step [Platform] (hdreams : Predicate.Plain phone.dream100) (hfits : Fits s)
    (hquote : Quotable (occasion, event)) :
    Matches Fits abs (step phone s (occasion, event))
      (Ledger.step (App.same phone.nfc) s.abs (s.meaning (occasion, event))) := by
  unfold step
  dsimp only
  cases hcontrol : s.control event with
  | some sent =>
    obtain ⟨hlabel, hsent⟩ := label_of_control hfits hquote hcontrol
    rw [← hlabel]
    exact matches_handled hdreams hfits hsent
  | none =>
    have hsilent := @meaning_of_silent _ occasion s event _ hfits hcontrol
    cases event with
    | select row => exact matches_select hdreams hfits row
    | cell row i =>
      obtain ⟨t, ht, hfits', happ⟩ := @display_fits _ phone occasion s _ hfits row i
      rw [hsilent fun _ => nofun]
      show Matches _ _ (s.display phone occasion row i) _
      rw [ht]
      exact matches_idle hfits' happ
    | leave row =>
      rw [hsilent fun _ => nofun]
      exact matches_idle (leave_fits hfits row).1 (leave_fits hfits row).2
    | listAdd =>
      rw [hsilent fun _ => nofun]
      exact matches_idle (listAdd_fits hfits).1 (listAdd_fits hfits).2
    | act event | press row button | detail row =>
      rw [hsilent fun _ => nofun]
      exact matches_idle hfits rfl

/-- The app under the fingers as a refinement of the ledger. -/
noncomputable def ledgerRefinement [Platform] (phone : Handset Image)
    (hdreams : Predicate.Plain phone.dream100) :
    Refinement (step phone) (Ledger.step (App.same phone.nfc)) where
  Inv := Fits
  Guard := Quotable
  abs := abs
  label := meaning
  sound hfits hquote := matches_step hdreams hfits hquote

/-! ## Whole runs -/

/-- The touches that trap: adding a text that is stored as achieved and like no row of the to-do
    list, and a Save under a content that another bucket has. -/
def Crashes (nfc : String → String) (s : TouchScreen Image) (event : Event) : Prop :=
  match s.app, event with
  | .write v, .act (.write (.btAdd text)) =>
    text ≠ "" ∧ (∃ b ∈ v.device.realm.rows, b.mContent = text ∧ b.mCompleteYN = "Y") ∧
      ∀ item ∈ v.mDataList, nfc item ≠ nfc text
  | .detail v, .act (.detail .btSave) =>
    v.etContent ≠ v.mContents ∧ v.etContent ∈ v.device.realm.keys
  | _, _ => False

/-- The ledger refuses nothing but an addition, a row that is not there and a Save. -/
def isRefusable : Ledger.Event → Bool
  | .add _ | .noRow | .save => true
  | _ => false

theorem not_refused {same : String → String → Prop} {state : Ledger.State} {event : Ledger.Event}
    (h : isRefusable event = false) : ¬ Ledger.Refused same state event := by
  unfold Ledger.Refused
  split
  · cases h
  · cases h
  · cases h
  · cases h
  · exact not_false

/-- What is done on a text that is read is not refused, when it is refused on no text. -/
theorem not_refused_onSeen {same : String → String → Prop} {state : Ledger.State}
    {f : String → Ledger.Event} (hf : ∀ text, isRefusable (f text) = false) (row : Nat) :
    ¬ Ledger.Refused same state (s.onSeen row f) := by
  unfold onSeen
  cases s.seen row with
  | none => exact not_refused rfl
  | some text => exact not_refused (hf text)

theorem not_refused_of_row [Platform] {nfc : String → String} (hact : ∀ sent, event ≠ .act sent) :
    ¬ Ledger.Refused (App.same nfc) s.abs (s.meaning (occasion, event)) := by
  cases event with
  | act sent => exact absurd rfl (hact sent)
  | press row button =>
    cases s with
    | write v table => cases button <;> exact not_refused_onSeen (fun _ => rfl) row
    | addBucket v table =>
      cases button with
      | btMod =>
        show ¬ Ledger.Refused _ _ (if v.mbVisible then _ else _)
        split
        · exact not_refused_onSeen (fun _ => rfl) row
        · exact not_false
      | btDel =>
        show ¬ Ledger.Refused _ _ (if v.mbVisible then _ else _)
        split
        · exact not_refused_onSeen (fun _ => rfl) row
        · exact not_false
    | bucketList v table | plain app => cases button <;> exact not_refused rfl
  | detail row | select row =>
    cases s with
    | bucketList v table => exact not_refused_onSeen (fun _ => rfl) row
    | _ => exact not_refused rfl
  | cell row i | leave row | listAdd => cases s <;> exact not_refused rfl

theorem crashes_act [Platform] (nfc : String → String) (s : TouchScreen Image) {sent : App.Event}
    (h : sent.isOfRow = false) : App.Crashes nfc s.app sent ↔ Crashes nfc s (.act sent) := by
  unfold App.Crashes Crashes
  cases s.app with
  | write v =>
    cases sent with
    | write event => cases event <;> first | exact Iff.rfl | cases h
    | rowMod data => cases h
    | _ => exact Iff.rfl
  | detail v =>
    cases sent with
    | detail event => cases event <;> exact Iff.rfl
    | _ => exact Iff.rfl
  | bucketList v =>
    cases sent with
    | rowDetail data => cases h
    | _ => exact Iff.rfl
  | _ => cases sent <;> exact Iff.rfl

theorem not_crashes_of_row (nfc : String → String) (s : TouchScreen Image) {sent : App.Event}
    (h : sent.isOfRow = true) : ¬ Crashes nfc s (.act sent) := by
  unfold Crashes
  split
  · next heq => cases heq; cases h
  · next heq => cases heq; cases h
  · exact not_false

/-- What the ledger refuses is what traps. -/
theorem refused_iff_crashes [Platform] (hfits : Fits s) :
    Ledger.Refused (App.same phone.nfc) s.abs (s.meaning (occasion, event)) ↔
      Crashes phone.nfc s event := by
  by_cases hact : ∃ sent, event = .act sent
  · obtain ⟨sent, rfl⟩ := hact
    have hmeaning : s.meaning (occasion, .act sent)
        = if sent.isOfRow then .idle else App.label s.app (occasion.today, sent) := by
      cases s <;> rfl
    rw [hmeaning]
    cases hrow : sent.isOfRow with
    | true => exact iff_of_false (not_refused rfl) (not_crashes_of_row phone.nfc s hrow)
    | false => exact (App.refused_iff_crashes hfits.app).trans (crashes_act phone.nfc s hrow)
  · have hact : ∀ sent, event ≠ .act sent := fun sent heq => hact ⟨sent, heq⟩
    refine iff_of_false (not_refused_of_row hact) ?_
    unfold Crashes
    split
    · exact absurd rfl (hact _)
    · exact absurd rfl (hact _)
    · exact not_false

end TouchScreen
end KBucket
