import KBucket.Proof.PostData
import KBucket.Proof.Preferences

/-!
# What the server knows of the user

The main screen tells the server of the user each time it appears, in a body that is written
without encoding. Over whole runs the updates tell of the preferences at these times (`Mails`),
and the server reads them as they are exactly when neither the name nor what the phone says of
itself has a character that the format gives a meaning to (`updates_read_iff`). The token never
has one.

The two are different statements. That the updates tell the truth needs well-formed preferences at
the launch, and no more; that the server understands them is a condition on characters. Requests
that are sent are not yet requests that arrive: what the network loses is not said here, and the
tasks of the updates call nobody when they are done.
-/

namespace KBucket

open Lib Lib.FormUrl

/-! ## Texts that need no encoding -/

theorem literal_of_notMem {text : String} (hampersand : '&' ∉ text.toList)
    (hplus : '+' ∉ text.toList) (hpercent : '%' ∉ text.toList) : Literal (utf8 text) where
  ampersand := notMem_utf8 (c := '&') (by decide) (by decide) hampersand
  plus := notMem_utf8 (c := '+') (by decide) (by decide) hplus
  escape := by
    intro h
    obtain ⟨a, b, -, -, hinfix⟩ := h
    have hmem : percent ∈ utf8 text := hinfix.subset List.mem_cons_self
    exact notMem_utf8 (c := '%') (by decide) (by decide) hpercent hmem

theorem literals_of_notMem {texts : List String}
    (h : texts.all (fun text => text.toList.all fun c => c != '&' && c != '+' && c != '%') = true) :
    ∀ text ∈ texts, Literal (utf8 text) := by
  intro text htext
  have hchars := List.all_eq_true.mp (List.all_eq_true.mp h text htext)
  apply literal_of_notMem
  · intro hmem
    exact absurd (hchars _ hmem) (by decide)
  · intro hmem
    exact absurd (hchars _ hmem) (by decide)
  · intro hmem
    exact absurd (hchars _ hmem) (by decide)

/-- A token is written in digits. -/
theorem digits_tokenText (deviceToken : Data) :
    ∀ c ∈ (AppDelegate.tokenText deviceToken).toList, (Hex.value? c).isSome := by
  have hfold : ∀ text : String, (∀ c ∈ text.toList, (Hex.value? c).isSome) →
      ∀ c ∈ (deviceToken.foldl (fun text byte =>
        text ++ String.ofList (Hex.pad 2 byte.toNat)) text).toList, (Hex.value? c).isSome := by
    induction deviceToken with
    | nil => exact fun text h => h
    | cons byte rest ih =>
      intro text h
      refine ih _ fun c hc => ?_
      rw [String.toList_append, String.toList_ofList] at hc
      rcases List.mem_append.mp hc with hc | hc
      · exact h c hc
      · exact Hex.isSome_of_read (Hex.read_pad 2 byte.toNat) c hc
  exact hfold "" fun c hc => nomatch hc

theorem literal_tokenText (deviceToken : Data) :
    Literal (utf8 (AppDelegate.tokenText deviceToken)) := by
  apply literal_of_notMem
  · intro h
    exact absurd (digits_tokenText deviceToken _ h) (by decide)
  · intro h
    exact absurd (digits_tokenText deviceToken _ h) (by decide)
  · intro h
    exact absurd (digits_tokenText deviceToken _ h) (by decide)

/-- The name of a parameter, as the source writes them. -/
def UpperName (name : String) : Prop := ∀ c ∈ name.toList, c.isUpper ∨ c = '_'

theorem UpperName.notMem {name : String} (h : UpperName name) {c : Char}
    (hupper : ¬ (c.isUpper ∨ c = '_')) : c ∉ name.toList := fun hc => hupper (h c hc)

/-- Parameters with such names need no encoding exactly when no value does. -/
theorem neutral_rows_iff {rows : List (String × String)} (hnames : ∀ row ∈ rows, UpperName row.1) :
    (∀ row ∈ rows, Neutral (StringUtils.bytes row)) ↔ ∀ row ∈ rows, Literal (utf8 row.2) := by
  constructor
  · intro h row hrow
    exact (h row hrow).value
  · intro h row hrow
    have hname := hnames row hrow
    refine ⟨?_, ?_, h row hrow⟩
    · exact literal_of_notMem (hname.notMem (by decide)) (hname.notMem (by decide))
        (hname.notMem (by decide))
    · exact notMem_utf8 (c := '=') (by decide) (by decide) (hname.notMem (by decide))

/-! ## One update -/

namespace Preferences

variable {hash : HashOrder} {phone : Phone} {p : Preferences}

/-- The user whom the preferences describe. -/
def user (phone : Phone) (p : Preferences) : MobileUser where
  mUserNickName := p.nickname
  mVersionName := ContextUtils.VERSION_NAME
  mLanguage := phone.getUserPhoneLanuage
  mCountry := phone.getUserPhoneLanuage
  mGcmToken := (p.token.map AppDelegate.tokenText).getD ""

/-- The request tells of the preferences, as the app writes them. -/
def Tells (hash : HashOrder) (phone : Phone) (request : URLRequest) (p : Preferences) : Prop :=
  ∃ sendData,
    StringUtils.getHTTPPostSendData ((p.user phone).toDictionary hash phone) = .ok sendData ∧
    request = UserUpdateTask.actionTaskWithData
      { mURl := ContextUtils.KBUCKET_UPDATE_USER, isPost := true } sendData

/-- The parameters that tell of the preferences. -/
def parameters (phone : Phone) (p : Preferences) : List (String × String) :=
  ((p.user phone).toDictionary .asWritten phone).rows

/-- The server reads the preferences out of the request, in some order. -/
def ReadFrom (phone : Phone) (request : URLRequest) (p : Preferences) : Prop :=
  (decodeForm request.httpBody).Perm ((p.parameters phone).map StringUtils.bytes)

theorem rows_perm (hash : HashOrder) (phone : Phone) (p : Preferences) :
    ((p.user phone).toDictionary hash phone).rows.Perm (p.parameters phone) :=
  hash.same _

/-- What the phone says of itself needs no encoding. -/
structure Plain (phone : Phone) : Prop where
  language : Literal (utf8 phone.getUserPhoneLanuage)
  systemVersion : Literal (utf8 phone.systemVersion)
  model : Literal (utf8 phone.model)

theorem literal_token (p : Preferences) :
    Literal (utf8 ((p.token.map AppDelegate.tokenText).getD "")) := by
  cases p.token with
  | none => exact literal_of_notMem nofun nofun nofun
  | some deviceToken => exact literal_tokenText deviceToken

theorem upperName_parameters (phone : Phone) (p : Preferences) :
    ∀ row ∈ p.parameters phone, UpperName row.1 := by
  have hnames : ((p.parameters phone).map Prod.fst).all
      (fun name => name.toList.all fun c => c.isUpper || c == '_') = true := by
    show ["OS", "NICKNAME", "PHONE", "VERSION_NAME", "MARKET", "LANG", "COUNTY", "GCM_TOKEN",
      "OS_VERSION", "TEL_GBN"].all (fun name => name.toList.all fun c => c.isUpper || c == '_') =
        true
    decide
  intro row hrow c hc
  have hname := List.all_eq_true.mp hnames _ (List.mem_map_of_mem hrow)
  have hchar := List.all_eq_true.mp hname c hc
  simpa using hchar

theorem neutral_parameters_iff :
    (∀ row ∈ p.parameters phone, Neutral (StringUtils.bytes row)) ↔
      Literal (utf8 p.nickname) ∧ Plain phone := by
  rw [neutral_rows_iff (upperName_parameters phone p)]
  have hconst : ∀ text ∈ ["IOS", "", ContextUtils.VERSION_NAME, "APPLE"], Literal (utf8 text) :=
    literals_of_notMem (by decide)
  show (∀ row ∈ [("OS", "IOS"), ("NICKNAME", p.nickname), ("PHONE", ""),
    ("VERSION_NAME", ContextUtils.VERSION_NAME), ("MARKET", "APPLE"),
    ("LANG", phone.getUserPhoneLanuage), ("COUNTY", phone.getUserPhoneLanuage),
    ("GCM_TOKEN", (p.token.map AppDelegate.tokenText).getD ""),
    ("OS_VERSION", phone.systemVersion), ("TEL_GBN", phone.model)], Literal (utf8 row.2)) ↔ _
  constructor
  · intro h
    refine ⟨h ("NICKNAME", p.nickname) (by simp), ?_, ?_, ?_⟩
    · exact h ("LANG", phone.getUserPhoneLanuage) (by simp)
    · exact h ("OS_VERSION", phone.systemVersion) (by simp)
    · exact h ("TEL_GBN", phone.model) (by simp)
  · intro h row hrow
    simp only [List.mem_cons, List.not_mem_nil, or_false] at hrow
    rcases hrow with rfl | rfl | rfl | rfl | rfl | rfl | rfl | rfl | rfl | rfl
    · exact hconst "IOS" (by simp)
    · exact h.1
    · exact hconst "" (by simp)
    · exact hconst _ (by simp)
    · exact hconst "APPLE" (by simp)
    · exact h.2.language
    · exact h.2.language
    · exact p.literal_token
    · exact h.2.systemVersion
    · exact h.2.model

/-- An update is read exactly when nothing in it needs encoding, in whatever order its parameters
    were written. -/
theorem Tells.readFrom_iff {request : URLRequest} (h : Tells hash phone request p) :
    ReadFrom phone request p ↔ Literal (utf8 p.nickname) ∧ Plain phone := by
  obtain ⟨sendData, hdata, rfl⟩ := h
  have hrows := rows_perm hash phone p
  have hneutral : (∀ row ∈ ((p.user phone).toDictionary hash phone).rows,
      Neutral (StringUtils.bytes row)) ↔ ∀ row ∈ p.parameters phone,
        Neutral (StringUtils.bytes row) := forall_congr' fun row => imp_congr_left hrows.mem_iff
  rw [← neutral_parameters_iff, ← hneutral, ← StringUtils.carries_iff]
  constructor
  · intro hread
    exact ⟨sendData, hdata, hread.trans (hrows.map _).symm⟩
  · intro hcarries
    obtain ⟨sendData', hdata', hread⟩ := hcarries
    cases hdata.symm.trans hdata'
    exact hread.trans (hrows.map _)

end Preferences

/-! ## One action -/

theorem MainView.getUserData_of_stores {v : MainView} {phone : Phone} {p : Preferences}
    (h : Stores v.controller.defaults p) : v.getUserData phone = p.user phone := by
  have hnickname : UserDefault.read v.controller.defaults ContextUtils.KEY_USER_NICKNAME
    = p.nickname := h .nickname
  have htoken : UserDefault.read v.controller.defaults ContextUtils.KEY_USER_FCM
    = (p.token.map AppDelegate.tokenText).getD "" := h .token
  unfold getUserData Preferences.user
  rw [hnickname, htoken]

/-- What is sent when the main screen appears. -/
theorem MainView.viewDidAppear_tells {v u : MainView} {hash : HashOrder} {phone : Phone}
    {isConnect : Bool} {requests : List URLRequest} {p : Preferences}
    (hstores : Stores v.controller.defaults p)
    (h : v.viewDidAppear hash phone isConnect = .ok (u, requests)) :
    if p.nickname = "" ∨ isConnect = false then requests = []
    else ∃ request, requests = [request] ∧ p.Tells hash phone request := by
  have hnickname : UserDefault.read v.controller.defaults ContextUtils.KEY_USER_NICKNAME
    = p.nickname := hstores .nickname
  unfold viewDidAppear at h
  rw [hnickname] at h
  dsimp only at h
  by_cases hempty : p.nickname = ""
  · rw [hempty] at h
    cases h
    rw [if_pos (.inl hempty)]
  · rw [if_neg (mt String.length_eq_zero_iff.mp hempty)] at h
    cases isConnect with
    | false =>
      cases h
      rw [if_pos (.inr rfl)]
    | true =>
      obtain ⟨request, hupdate, h⟩ := bind_eq_ok.mp h
      cases h
      obtain ⟨sendData, hdata, hrequest⟩ := bind_eq_ok.mp hupdate
      cases hrequest
      rw [if_neg (by simp [hempty])]
      refine ⟨_, rfl, sendData, ?_, rfl⟩
      rw [← getUserData_of_stores hstores]
      exact hdata

namespace Shell

open Preferences (Reported)

variable {env : Surroundings} {s t : Shell} {p : Preferences}

/-- What an action does with the preferences. -/
def act (env : Surroundings) (s : Shell) (e : Moment × Event) : Option Preferences.Act :=
  match s.front, e with
  | .main _ _, (now, .appear _) => if now.isConnect then some .report else none
  | _, e => (change env s e).map .change

/-- The preferences are those stored, and the updates tell of those that were reported. -/
structure Mails (env : Surroundings) (s : Shell) (r : Reported) : Prop where
  keeps : Keeps s r.preferences
  tells : List.Forall₂ (Preferences.Tells env.hash env.phone) s.updates r.reports

/-- Nothing is sent but by the main screen when it appears. -/
theorem step_updates [Platform] {e : Moment × Event}
    (hother : ∀ realm v shown, ¬ (s.front = .main realm v ∧ e.2 = .appear shown))
    (hstep : step env s e = .ok t) :
    t.updates = s.updates ∧ act env s e = (change env s e).map .change := by
  obtain ⟨now, event⟩ := e
  obtain ⟨front, updates, behind⟩ := s
  cases event with
  | token deviceToken =>
    rw [step_token] at hstep
    cases hstep
    exact ⟨rfl, by cases front <;> rfl⟩
  | appear shown =>
    cases front with
    | main realm v => exact absurd ⟨rfl, rfl⟩ (hother realm v shown)
    | _ => cases hstep; exact ⟨rfl, rfl⟩
  | receive receiver i type data =>
    rw [step_receive] at hstep
    exact ⟨(receive_received hstep).2, by cases front <;> rfl⟩
  | lose receiver i =>
    rw [step_lose] at hstep
    exact ⟨by rw [eq_of_lose hstep], by cases front <;> rfl⟩
  | store event =>
    cases front with
    | store app =>
      obtain ⟨app', -, hstep⟩ := bind_eq_ok.mp hstep
      cases hstep
      exact ⟨rfl, rfl⟩
    | _ => cases hstep; exact ⟨rfl, rfl⟩
  | menu row =>
    cases front with
    | setting realm v =>
      rw [step_menu] at hstep
      cases hstep
      exact ⟨by split <;> rfl, rfl⟩
    | _ => cases hstep; exact ⟨rfl, rfl⟩
  | pad sender =>
    cases front with
    | passWord realm v =>
      obtain ⟨u, -, hstep⟩ := bind_eq_ok.mp hstep
      cases hstep
      exact ⟨rfl, rfl⟩
    | _ => cases hstep; exact ⟨rfl, rfl⟩
  | colour sender =>
    cases front with
    | setBackColor realm v =>
      obtain ⟨u, -, hstep⟩ := bind_eq_ok.mp hstep
      cases hstep
      exact ⟨rfl, rfl⟩
    | _ => cases hstep; exact ⟨rfl, rfl⟩
  | main button | typeName text | setName | back =>
    cases front <;> (cases hstep; exact ⟨rfl, rfl⟩)

/-- The main screen appears. -/
theorem foldl_appear {realm : Realm} {v : MainView} {updates : List URLRequest}
    {behind : List Left} (now : Moment)
    (shown : Bool) (r : Reported) :
    (act env ⟨.main realm v, updates, behind⟩ (now, .appear shown)).toList.foldl Reported.act r
      = if r.preferences.nickname = "" ∨ now.isConnect = false then r
        else { r with reports := r.reports ++ [r.preferences] } := by
  show (if now.isConnect then some Preferences.Act.report else none).toList.foldl _ r = _
  cases now.isConnect with
  | false =>
    have hsilent : r.preferences.nickname = "" ∨ false = false := .inr rfl
    rw [if_pos hsilent]
    rfl
  | true =>
    show Reported.act r .report = _
    simp only [Reported.act, Bool.true_eq_false, or_false]

theorem mails_step [Platform] {e : Moment × Event} {r : Reported} (h : Mails env s r)
    (hstep : step env s e = .ok t) :
    Mails env t ((act env s e).toList.foldl Reported.act r) := by
  have hkeeps := keeps_step h.keeps hstep
  by_cases happear : ∃ realm v shown, s.front = .main realm v ∧ e.2 = .appear shown
  · obtain ⟨now, event⟩ := e
    obtain ⟨front, updates, behind⟩ := s
    obtain ⟨realm, v, shown, hfront, hevent⟩ := happear
    dsimp only at hfront hevent
    subst hfront hevent
    obtain ⟨⟨u, requests⟩, hview, hstep⟩ := bind_eq_ok.mp hstep
    cases hstep
    have hsent := MainView.viewDidAppear_tells h.keeps.stores hview
    rw [foldl_appear]
    split at hsent
    · next hsilent =>
      subst hsent
      rw [if_pos hsilent]
      refine ⟨hkeeps, ?_⟩
      show List.Forall₂ _ (updates ++ []) _
      rw [List.append_nil]
      exact h.tells
    · next hreport =>
      obtain ⟨request, rfl, htells⟩ := hsent
      rw [if_neg hreport]
      exact ⟨hkeeps, List.rel_append h.tells (.cons htells .nil)⟩
  · have hother : ∀ realm v shown, ¬ (s.front = .main realm v ∧ e.2 = .appear shown) :=
      fun realm v shown h => happear ⟨realm, v, shown, h⟩
    obtain ⟨hupdates, hact⟩ := step_updates hother hstep
    rw [hact]
    cases hchange : change env s e with
    | none =>
      rw [hchange] at hkeeps
      exact ⟨hkeeps, hupdates ▸ h.tells⟩
    | some change =>
      rw [hchange] at hkeeps
      exact ⟨hkeeps, hupdates ▸ h.tells⟩

/-- Reports that the server reads are those that need no encoding. -/
theorem forall₂_readFrom_iff {hash : HashOrder} {phone : Phone} {updates : List URLRequest}
    {reports : List Preferences}
    (h : List.Forall₂ (Preferences.Tells hash phone) updates reports) :
    List.Forall₂ (Preferences.ReadFrom phone) updates reports ↔
      ∀ q ∈ reports, Literal (utf8 q.nickname) ∧ Preferences.Plain phone := by
  induction h with
  | nil => exact iff_of_true .nil nofun
  | cons hhead _ ih => rw [List.forall₂_cons, List.forall_mem_cons, ih, hhead.readFrom_iff]

/-- **The server is told of the user as the preferences were each time**: the updates that a run
    of the app sends are, in order, one for each time the main screen appeared with a name set
    and the network reached, and each tells of the preferences at that time. The server reads
    them all so exactly when each name, and what the phone says of itself, needs no encoding.
    The device has the preferences `p` stored at the launch: on any other text under one of the
    keys there is no preference to tell of. -/
theorem updates_read_iff [Platform] {now : Moment} {device : Device}
    (hstores : Stores device.defaults p) {events : List (Moment × Event)}
    (hrun : Runs (step env) (launched env now device) events t) :
    let reports := ((trace (step env) (act env) (launched env now device) events).foldl
      Reported.act ⟨p.withTheme Theme.first, []⟩).reports
    t.updates.length = reports.length ∧
      List.Forall₂ (Preferences.Tells env.hash env.phone) t.updates reports ∧
      (List.Forall₂ (Preferences.ReadFrom env.phone) t.updates reports ↔
        ∀ q ∈ reports, Literal (utf8 q.nickname) ∧ Preferences.Plain env.phone) := by
  have hstart : Mails env (launched env now device) ⟨p.withTheme Theme.first, []⟩ :=
    ⟨keeps_launched now hstores, .nil⟩
  have hmails := hrun.follows (R := Mails env) (fun s e t r h hstep => mails_step h hstep) hstart
  exact ⟨hmails.tells.length_eq, hmails.tells, forall₂_readFrom_iff hmails.tells⟩

/-- A user who goes by that name. -/
def named (name : String) : UserDefaults :=
  UserDefault.write (fun _ => none) ContextUtils.KEY_USER_NICKNAME name

theorem stores_named (name : String) : Stores (named name) { nickname := name } := by
  intro key
  cases key <;> rfl

/-- The main screen appears, a token arrives, and the main screen appears again. -/
def appearTwice : List (Moment × Event) :=
  [(⟨"24-05-01", true⟩, .appear true), (⟨"24-05-01", true⟩, .token [255]),
    (⟨"24-05-01", true⟩, .appear true)]

def kiki : Shell := launched englishPhone ⟨"24-05-01", false⟩ ⟨Table.empty, named "kiki"⟩

theorem updates_read_iff_kiki : ∃ t, Runs (step englishPhone) kiki appearTwice t ∧
    List.Forall₂ (Preferences.ReadFrom englishPhone.phone) t.updates
      [{ nickname := "kiki", theme := some Theme.first },
        { nickname := "kiki", theme := some Theme.first, token := some [255] }] := by
  have hrun : Runs (step englishPhone) kiki appearTwice _ := .cons rfl (.cons rfl (.single rfl))
  have htrace : trace (step englishPhone) (act englishPhone) kiki appearTwice
      = [.report, .change (.token [255]), .report] := rfl
  have hread := (updates_read_iff (stores_named "kiki") hrun).2.2
  rw [show launched englishPhone _ _ = kiki from rfl, htrace] at hread
  have hplain : ∀ text ∈ ["kiki", "en", "12.4", "iPhone"], Literal (utf8 text) :=
    literals_of_notMem (by decide)
  simp only [List.forall_mem_cons, List.not_mem_nil, false_implies, implies_true, and_true]
    at hplain
  have hphone : Preferences.Plain englishPhone.phone := ⟨hplain.2.1, hplain.2.2.1, hplain.2.2.2⟩
  refine ⟨_, hrun, hread.mpr ?_⟩
  exact List.forall_mem_cons.mpr ⟨⟨hplain.1, hphone⟩,
    List.forall_mem_cons.mpr ⟨⟨hplain.1, hphone⟩, nofun⟩⟩

end Shell
end KBucket
