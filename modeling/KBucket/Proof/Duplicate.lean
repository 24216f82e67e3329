import KBucket.App
import KBucket.Proof.Detail
import KBucket.Proof.WriteList

/-!
# The two duplicate checks

Adding on the to-do screen asks the list on display whether a content is new, and the store
raises when it is not. The two agree as long as the list shows everything that is stored, and
the list leaves out what is achieved: so they agree in every state of every run that opens the
to-do screen only while nothing stored is achieved, and an achieved bucket on opening is a
content that the check lets through and the store refuses.

The condition on openings is sufficient for whole runs, and for one opening it is necessary too
(`achieved_on_opening`). Of a run more cannot be said, as an opening on an achieved bucket may be
followed by another one without.

Swift takes two canonically equivalent texts for one, and the store does not. The check on the
screen is therefore the coarser one, and the agreement is about texts to which nothing stored is
equivalent without being equal.
-/

namespace KBucket
namespace App

open Lib

variable {nfc : String → String}

/-! ## What the screens have in common -/

/-- The list of the to-do screen shows every stored content. -/
def ShowsAll (v : WriteView) : Prop := ∀ t, t ∈ v.mDataList ↔ t ∈ v.device.realm.keys

/-- What holds of the screen in front, beside the store being plain. -/
def ScreenOk : App → Prop
  | .write v => WriteView.Synced v ∧ ShowsAll v
  | .detail v => Predicate.Plain v.etContent
  | _ => True

/-- The store is plain, and the screen in front fits it. -/
structure Ok (app : App) : Prop where
  plain : PlainStore app.device.realm
  screen : ScreenOk app

/-- The texts that the user enters can be quoted. -/
def PlainTexts : Event → Prop
  | .write (.btAdd text) => Predicate.Plain text
  | .detail (.etContent text) => Predicate.Plain text
  | .rowAdd text => Predicate.Plain text
  | _ => True

/-- When the to-do screen is opened, nothing that is stored is achieved. -/
def NothingAchieved (app : App) : Event → Prop
  | .openWrite => ∀ b ∈ app.device.realm.rows, WriteView.Admitted b
  | _ => True

theorem showsAll_of_admitted {v : WriteView} (hsync : WriteView.Synced v)
    (hadm : ∀ b ∈ v.device.realm.rows, WriteView.Admitted b) : ShowsAll v := by
  intro t
  rw [hsync.mem_iff, Table.mem_keys]
  constructor
  · rintro ⟨b, hb, -, rfl⟩; exact ⟨b, hb, rfl⟩
  · rintro ⟨b, hb, rfl⟩; exact ⟨b, hb, hadm b hb, rfl⟩

/-- The to-do screen keeps showing everything: what it adds is not achieved. -/
theorem ShowsAll.change {v v' : WriteView} {event : WriteView.Event} (h : ShowsAll v)
    (hnd : v.mDataList.Nodup) (hch : WriteView.Change v event v') : ShowsAll v' := by
  intro t
  cases hch with
  | same hrealm hperm => rw [hperm.mem_iff, hrealm]; exact h t
  | added text _ _ hrows hlist =>
    rw [hlist, Table.mem_keys, hrows, List.mem_append, h t, Table.mem_keys, List.mem_singleton]
    simp only [List.mem_append, List.mem_singleton]
    constructor
    · intro h
      rcases h with ⟨b, hb, rfl⟩ | rfl
      · exact ⟨b, .inl hb, rfl⟩
      · exact ⟨_, .inr rfl, rfl⟩
    · intro h
      rcases h with ⟨b, hb | rfl, rfl⟩
      · exact .inl ⟨b, hb, rfl⟩
      · exact .inr rfl
  | deleted i row hrow hrealm hlist =>
    rw [hlist, hrealm, WriteView.mem_eraseIdx hnd hrow, Table.mem_keys_erase, h t]

/-! ## Every step keeps the screens fitting -/

theorem ok_present {today : String} {device : Device} {next : Presented} {app : App}
    (hplain : PlainStore device.realm) (h : present today device next = .ok app) : Ok app := by
  cases next with
  | writeDetail CONTENTS BACK =>
    obtain ⟨v, hload, rfl⟩ := map_eq_ok.mp h
    obtain ⟨hdevice, hcontent⟩ := WriteDetailView.viewDidLoad_shows hload
    refine ⟨by rw [App.device, hdevice]; exact hplain, ?_⟩
    show Predicate.Plain v.etContent
    rcases hcontent with h | h
    · rw [h]; decide
    · exact hplain _ h
  | view strView =>
    simp only [present] at h
    split at h
    · cases h; exact ⟨hplain, trivial⟩
    · cases h; exact ⟨hplain, trivial⟩
  | main mWidgetSendData => cases h; exact ⟨hplain, trivial⟩

theorem ok_follow {today : String} {app app' : App} {presented : List Presented} (hok : Ok app)
    (h : follow today app presented = .ok app') : Ok app' := by
  unfold follow at h
  split at h
  · exact ok_present hok.plain h
  · cases h; exact hok

/-- Opening a row of the to-do list only presents. -/
theorem rowMod_keeps [Platform] {v v' : WriteView} {data : String}
    (h : v.receiveEventFromViewItem 0 data = .ok v') :
    v'.device = v.device ∧ v'.mDataList = v.mDataList := by
  unfold WriteView.receiveEventFromViewItem at h
  rw [if_pos rfl] at h
  obtain ⟨index, -, h⟩ := bind_eq_ok.mp h
  obtain ⟨CONTENTS, -, h⟩ := bind_eq_ok.mp h
  cases h
  exact ⟨rfl, rfl⟩

theorem rowDetail_keeps [Platform] {v v' : BucketListView} {data : String}
    (h : v.receiveEventFromViewItem 0 data = .ok v') : v'.device = v.device := by
  unfold BucketListView.receiveEventFromViewItem BucketListView.changeDetailView at h
  rw [if_pos rfl] at h
  obtain ⟨index, -, h⟩ := bind_eq_ok.mp h
  obtain ⟨postData, -, h⟩ := bind_eq_ok.mp h
  cases h
  rfl

/-- The suggestions add a plain content, or take one away. -/
theorem plain_rowAdd {v v' : AddBucketView} {date data : String}
    (hplain : PlainStore v.device.realm) (hdata : Predicate.Plain data)
    (h : v.receiveEventFromViewItem date 0 data = .ok v') : PlainStore v'.device.realm := by
  unfold AddBucketView.receiveEventFromViewItem AddBucketView.addDBData at h
  rw [if_pos rfl, SQLQuery.containsKbucket_plain hdata] at h
  obtain ⟨inContainsBucket, hcontains, h⟩ := bind_eq_ok.mp h
  cases hcontains
  by_cases hk : data ∈ v.device.realm.keys
  · simp only [hk, decide_true] at h
    cases h
    exact hplain
  · simp only [hk, decide_false] at h
    obtain ⟨r, hins, h⟩ := bind_eq_ok.mp h
    cases h
    obtain ⟨-, -, hrows⟩ := SQLQuery.insertUserSetting_eq_ok.mp hins
    exact hplain.added hdata hrows

theorem plain_rowRemove {v v' : AddBucketView} {date data : String}
    (hplain : PlainStore v.device.realm)
    (h : v.receiveEventFromViewItem date 1 data = .ok v') : PlainStore v'.device.realm := by
  unfold AddBucketView.receiveEventFromViewItem AddBucketView.removeDBData at h
  rw [if_neg (by decide), if_pos rfl] at h
  obtain ⟨r, hdel, h⟩ := bind_eq_ok.mp h
  obtain ⟨inContainsBucket, -, h⟩ := bind_eq_ok.mp h
  cases h
  exact hplain.of_mem fun b hb => .inl (SQLQuery.mem_of_deleteUserBucket hdel hb)

theorem ok_openWrite {device : Device} (hplain : PlainStore device.realm)
    (hadm : ∀ b ∈ device.realm.rows, WriteView.Admitted b) :
    Ok (.write (.viewDidLoad nfc device)) := by
  have hsync := WriteView.synced_viewDidLoad nfc device
  have hdevice := WriteView.viewDidLoad_device nfc device
  refine ⟨by rw [App.device, hdevice]; exact hplain, hsync, showsAll_of_admitted hsync ?_⟩
  rw [hdevice]
  exact hadm

theorem ok_write [Platform] {v v' : WriteView} {event : WriteView.Event} (hok : Ok (.write v))
    (htext : PlainTexts (.write event)) (h : v.step nfc event = .ok v') : Ok (.write v') := by
  obtain ⟨hplain, hsync, hall⟩ := hok
  have hch := WriteView.step_change (fun t ht => hplain t (hsync.mem_keys ht)) h
  have htext' : ∀ text, event = .btAdd text → Predicate.Plain text := by
    rintro text rfl
    exact htext
  exact ⟨WriteView.plainStore_change hplain htext' hch, hsync.change hch,
    hall.change hsync.nodup hch⟩

theorem ok_detail {v v' : WriteDetailView} {event : WriteDetailView.Event} (hok : Ok (.detail v))
    (htext : PlainTexts (.detail event)) (h : v.step event = .ok v') : Ok (.detail v') := by
  have hcontent : Predicate.Plain v.etContent := hok.screen
  refine ⟨hok.plain.of_mem fun b hb => ?_, ?_⟩
  · rcases WriteDetailView.mem_of_step h hb with hb | rfl
    · exact .inl hb
    · exact .inr hcontent
  · show Predicate.Plain v'.etContent
    rcases WriteDetailView.step_etContent h with hsame | htyped
    · rw [hsame]; exact hcontent
    · rw [htyped] at htext
      exact htext

/-- **Every step keeps the screen in front fitting**, if the to-do screen is opened only while
    nothing is achieved. -/
theorem Ok.step [Platform] {app app' : App} {today : String} {event : Event} (hok : Ok app)
    (htext : PlainTexts event) (hopen : NothingAchieved app event)
    (h : step nfc app (today, event) = .ok app') : Ok app' := by
  -- One case per screen and per control that the screen has; anything else stays.
  simp only [App.step] at h
  split at h
  · cases h; exact ok_openWrite hok.plain hopen
  · cases h; exact ⟨hok.plain, trivial⟩
  · cases h; exact ⟨hok.plain, trivial⟩
  · cases h; exact ⟨hok.plain, trivial⟩
  · obtain ⟨v', hstep, rfl⟩ := map_eq_ok.mp h
    exact ok_write hok htext hstep
  · obtain ⟨v', hmod, hfollow⟩ := bind_eq_ok.mp h
    obtain ⟨hdevice, hlist⟩ := rowMod_keeps hmod
    refine ok_follow ⟨?_, ?_⟩ hfollow
    · rw [App.device, hdevice]; exact hok.plain
    · obtain ⟨hsync, hall⟩ := hok.screen
      refine ⟨⟨by rw [hlist]; exact hsync.nodup, ?_⟩, ?_⟩
      · rw [hlist, hdevice]; exact hsync.mem_iff
      · unfold ShowsAll; rw [hlist, hdevice]; exact hall
  · obtain ⟨v', hstep, hfollow⟩ := bind_eq_ok.mp h
    exact ok_follow (ok_detail hok htext hstep) hfollow
  · obtain ⟨v', hrow, hfollow⟩ := bind_eq_ok.mp h
    have hok' : Ok (.bucketList v') := by
      refine ⟨?_, trivial⟩
      rw [App.device, rowDetail_keeps hrow]
      exact hok.plain
    exact ok_follow hok' hfollow
  · obtain ⟨v', hadd, rfl⟩ := map_eq_ok.mp h
    exact ⟨plain_rowAdd hok.plain htext hadd, trivial⟩
  · obtain ⟨v', hrem, rfl⟩ := map_eq_ok.mp h
    exact ⟨plain_rowRemove hok.plain hrem, trivial⟩
  · cases h
    refine ⟨?_, trivial⟩
    show PlainStore (SQLQuery.DeleteBucketContents _)
    rw [SQLQuery.DeleteBucketContents_eq]
    intro c hc
    cases hc
  · cases h; exact ⟨hok.plain, trivial⟩
  · cases h; exact ⟨hok.plain, trivial⟩
  · cases h; exact ⟨hok.plain, trivial⟩
  · cases h; exact ⟨hok.plain, trivial⟩
  · cases h; exact hok

/-! ## The checks agree -/

/-- A list that shows everything answers as the store does. -/
theorem checkduplicateData_eq {v : WriteView} (hall : ShowsAll v) {t : String}
    (hnfc : ∀ c ∈ v.device.realm.keys, nfc c = nfc t → c = t) :
    WriteView.checkduplicateData nfc v t = decide (t ∈ v.device.realm.keys) := by
  rw [Bool.eq_iff_iff, decide_eq_true_iff]
  simp only [WriteView.checkduplicateData, List.any_eq_true, stringEq, beq_iff_eq]
  constructor
  · intro h
    obtain ⟨c, hc, heq⟩ := h
    have hkey := (hall c).mp hc
    exact hnfc c hkey heq ▸ hkey
  · intro ht
    exact ⟨t, (hall t).mpr ht, rfl⟩

/-- Such a list lets through only what the store will take. -/
theorem notMem_of_checkduplicateData {v : WriteView} (hall : ShowsAll v) {t : String}
    (h : WriteView.checkduplicateData nfc v t = false) : t ∉ v.device.realm.keys := by
  intro hkey
  simp only [WriteView.checkduplicateData, List.any_eq_false] at h
  exact h t ((hall t).mpr hkey) (stringEq_refl nfc t)

/-- Adding reports a duplicate, or stores a new key. -/
def AddsSafely (nfc : String → String) (v : WriteView) (t : String) : Prop :=
  ∃ v', WriteView.onClick nfc { v with etEdit := t } .btAdd = .ok v' ∧
    ((WriteView.checkduplicateData nfc v t = true ∧ v'.device = v.device) ∨
      (t ∉ v.device.realm.keys ∧
        v'.device.realm.rows = v.device.realm.rows ++ [SQLQuery.insertedBucket t ""]))

theorem addsSafely_of_showsAll {v : WriteView} (hall : ShowsAll v) (t : String) :
    AddsSafely nfc v t := by
  cases hdup : WriteView.checkduplicateData nfc v t with
  | true => exact ⟨_, WriteView.onClick_btAdd_duplicate hdup, .inl ⟨hdup, rfl⟩⟩
  | false =>
    have hk := notMem_of_checkduplicateData hall hdup
    obtain ⟨realm, heq, hrows⟩ :=
      WriteView.onClick_btAdd_new (v := { v with etEdit := t }) hdup hk
    exact ⟨_, heq, .inr ⟨hk, hrows⟩⟩

/-- **On every to-do screen of a run that opens it only while nothing stored is achieved, the two
    duplicate checks agree** on every text that no other stored content is canonically equivalent
    to, and adding never raises.

    `hopen` is the condition, and it is one on the state before each opening: the list is read on
    opening and not afterwards, and on this screen nothing becomes achieved. `hplain` and `htexts`
    are there because the store's check goes through a predicate; a text that cannot be quoted is
    the subject of `selectsExactly_iff_plain`. That two stored contents may be canonically
    equivalent is Swift's affair and not Realm's, hence the condition on `nfc`. -/
theorem duplicate_checks_agree [Platform] {device : Device} {events : List (String × Event)}
    {v : WriteView} (hplain : PlainStore device.realm) (htexts : ∀ e ∈ events, PlainTexts e.2)
    (hopen : Guarded (step nfc) (fun app e => NothingAchieved app e.2) (.main device) events)
    (hrun : Runs (step nfc) (.main device) events (.write v)) :
    (∀ t, Predicate.Plain t → (∀ c ∈ v.device.realm.keys, nfc c = nfc t → c = t) →
      SQLQuery.containsKbucket v.device.realm t = .ok (WriteView.checkduplicateData nfc v t)) ∧
    ∀ t, AddsSafely nfc v t := by
  have hplainTexts :
      Guarded (step nfc) (fun _ e => PlainTexts e.2) (.main device) events :=
    Guarded.of_forall fun e he _ => htexts e he
  have hguard := EachStep.and hplainTexts hopen
  have hok : Ok (.write v) := by
    refine Runs.invariant ?_ hrun ⟨hplain, trivial⟩ hguard
    rintro app ⟨today, event⟩ app' hok ⟨htext, hopen⟩ h
    exact hok.step htext hopen h
  obtain ⟨-, hall⟩ := hok.screen
  refine ⟨fun t ht hnfc => ?_, fun t => addsSafely_of_showsAll hall t⟩
  rw [SQLQuery.containsKbucket_plain ht, checkduplicateData_eq hall hnfc]

theorem duplicate_checks_agree_fresh :
    ∃ v, Runs (step id) (.main { realm := Table.empty, defaults := fun _ => none })
        [("24-05-01", .openWrite), ("24-05-01", .write (.btAdd "Paris"))] (.write v) ∧
      SQLQuery.containsKbucket v.device.realm "Paris"
        = .ok (WriteView.checkduplicateData id v "Paris") ∧ AddsSafely id v "Rome" := by
  have htexts : ∀ e ∈ [(("24-05-01" : String), Event.openWrite),
      ("24-05-01", .write (.btAdd "Paris"))], PlainTexts e.2 := by
    intro e he
    simp only [List.mem_cons, List.not_mem_nil, or_false] at he
    rcases he with rfl | rfl
    · trivial
    · show Predicate.Plain "Paris"
      decide
  have hrun : Runs (step id) (.main { realm := Table.empty, defaults := fun _ => none })
      [("24-05-01", .openWrite), ("24-05-01", .write (.btAdd "Paris"))] (.write _) :=
    .cons rfl (.single rfl)
  have hopen : Guarded (step id) (fun app e => NothingAchieved app e.2)
      (.main { realm := Table.empty, defaults := fun _ => none })
      [("24-05-01", .openWrite), ("24-05-01", .write (.btAdd "Paris"))] :=
    ⟨fun b hb => (by cases hb), fun _ _ => ⟨trivial, fun _ _ => trivial⟩⟩
  have hplain : PlainStore (Table.empty : Realm) := fun c hc => by cases hc
  obtain ⟨hagree, hadds⟩ := duplicate_checks_agree hplain htexts hopen hrun
  exact ⟨_, hrun, hagree "Paris" (by decide) (by simp), hadds "Rome"⟩

/-- An achieved bucket on opening is a content on which the checks differ, and adding it raises. -/
theorem achieved_on_opening {device : Device} {b : Bucket} (hb : b ∈ device.realm.rows)
    (hc : Predicate.Plain b.mContent) (hach : ¬ WriteView.Admitted b)
    (hnfc : ∀ c ∈ device.realm.keys, nfc c = nfc b.mContent → c = b.mContent) :
    WriteView.checkduplicateData nfc (.viewDidLoad nfc device) b.mContent = false ∧
      SQLQuery.containsKbucket device.realm b.mContent = .ok true ∧
      WriteView.onClick nfc { WriteView.viewDidLoad nfc device with etEdit := b.mContent } .btAdd
        = .error .primaryKeyExists := by
  have hsync := WriteView.synced_viewDidLoad nfc device
  have hdevice := WriteView.viewDidLoad_device nfc device
  have hkey : b.mContent ∈ device.realm.keys := Table.key_mem hb
  have hcheck : WriteView.checkduplicateData nfc (.viewDidLoad nfc device) b.mContent = false := by
    simp only [WriteView.checkduplicateData, List.any_eq_false]
    intro c hmem heq
    obtain ⟨b', hb', hadm, rfl⟩ := (hsync.mem_iff c).mp hmem
    rw [hdevice] at hb'
    have hsame : b'.mContent = b.mContent :=
      hnfc _ (Table.key_mem hb') (by simpa [stringEq] using heq)
    exact hach (device.realm.eq_of_key_eq hb' hb hsame ▸ hadm)
  refine ⟨hcheck, ?_, ?_⟩
  · rw [SQLQuery.containsKbucket_plain hc]
    simp [hkey]
  · refine WriteView.onClick_btAdd_taken hcheck ?_
    show b.mContent ∈ (WriteView.viewDidLoad nfc device).device.realm.keys
    rw [hdevice]
    exact hkey

/-- A bucket that is added, marked achieved on the detail screen and added again: the list does
    not show it, the store has it, and the second addition raises. -/
theorem achieved_bucket_added_again :
    ∃ events v, (∀ e ∈ events, PlainTexts e.2) ∧
      Runs (step id) (.main { realm := Table.empty, defaults := fun _ => none }) events (.write v) ∧
      SQLQuery.containsKbucket v.device.realm "Paris" = .ok true ∧
      WriteView.checkduplicateData id v "Paris" = false ∧
      WriteView.onClick id { v with etEdit := "Paris" } .btAdd = .error .primaryKeyExists := by
  refine ⟨[("24-05-01", .openWrite), ("24-05-01", .write (.btAdd "Paris")),
    ("24-05-01", .rowMod "0"), ("24-05-02", .detail (.btCheckbox true)),
    ("24-05-02", .detail .btSave), ("24-05-02", .openWrite)], _, ?_,
    .cons rfl (.cons rfl (.cons rfl (.cons rfl (.cons rfl (.single rfl))))), ?_, ?_, ?_⟩
  · intro e he
    simp only [List.mem_cons, List.not_mem_nil, or_false] at he
    rcases he with rfl | rfl | rfl | rfl | rfl | rfl
    · trivial
    · show Predicate.Plain "Paris"
      decide
    all_goals trivial
  · rfl
  · rfl
  · rfl

end App
end KBucket
