import KBucket.Proof.Answer
import KBucket.Proof.Ledger
import KBucket.Proof.Preferences
import KBucket.Proof.Version

/-!
# What ends the process

The actions, among all that the app knows, that end in a trap: those of the screens of the store
(`App.Crashes`), a colour that cannot be written, an answer to a main screen that lacks a field or
gives a version that is no list of numbers, and the loss of a request that a main screen waits
for. The last two end the process whatever is in front when they happen: the main screen that
asked may have been left long ago. Everything else goes through, on every screen and in every
state that the app can come to.

What the app can come to is an invariant of the screen in front (`Front.Fits`). It asks that the
stored contents can be quoted, so every result here is about texts that can.

Each of the conditions is on the state before the action, so the result is an equivalence over
whole runs. What is left out are the screens that only show what the server has. Their requests
can be lost as well, and what they do then is said where they are modelled
(`Proof.NoticeScreen`, `Proof.CommentThread`, `Proof.RankExchange`).
-/

namespace KBucket

open Lib

/-! ## The answers to the main screen -/

theorem StringUtils.returns_compareVersion [Platform] (versionName : String) :
    Returns (compareVersion ContextUtils.VERSION_NAME versionName) ↔
      ∀ str ∈ components versionName, IntText str := by
  have hnumbers : Returns (getIntegrArrayFromStringArray (components versionName)) ↔
      ∀ str ∈ components versionName, IntText str := by
    rw [getIntegrArrayFromStringArray, Returns.mapM_iff]
    refine forall₂_congr fun str _ => ?_
    rw [← isSome_intOfString?_iff]
    cases intOfString? str <;> simp
  rw [← hnumbers]
  constructor
  · intro h
    obtain ⟨order, h⟩ := h
    obtain ⟨xs, -, h⟩ := bind_eq_ok.mp h
    obtain ⟨ys, hys, -⟩ := bind_eq_ok.mp h
    exact ⟨ys, hys⟩
  · intro h
    obtain ⟨ys, hys⟩ := h
    exact ⟨_, compareVersion_eq ViewController.reads_running
      (getIntegrArrayFromStringArray_eq_ok.mp hys)⟩

namespace ViewController

variable {v : ViewController} {type actionId : Int} {data : Option Json}

/-- An answer with the fields that the main screen reads in it, the version as numbers between
    dots. An answer that is no object is not read. -/
def Usable [Platform] (type actionId : Int) (data : Option Json) : Prop :=
  type = ConstHTTP.HTTP_OK → ∀ fields, data = some (.obj fields) →
    (actionId = ConstHTTP.REQUEST_AI → Kind.string.accepts (fields.lookup "replay")) ∧
    (actionId = ConstHTTP.UPDATE_VERSION → fields ≠ [] →
      ∃ versionName forceYN, fields.lookup "versionName" = some (.str versionName) ∧
        fields.lookup "forceYN" = some (.str forceYN) ∧
        (versionName ≠ "" → ∀ str ∈ StringUtils.components versionName, IntText str))

theorem returns_checkVersion [Platform] (versionName forceYN : String) :
    Returns (v.checkVersion versionName forceYN) ↔
      (versionName ≠ "" → ∀ str ∈ StringUtils.components versionName, IntText str) := by
  by_cases hne : versionName = ""
  · subst hne
    exact iff_of_true ⟨v, rfl⟩ fun h => absurd rfl h
  · have hpos : versionName.length > 0 :=
      Nat.pos_of_ne_zero fun hzero => hne (String.length_eq_zero_iff.mp hzero)
    rw [← StringUtils.returns_compareVersion]
    exact (checkVersion_returns_iff hpos).trans ⟨fun h _ => h, fun h => h hne⟩

theorem returns_versionFields [Platform] (fields : List (String × Json)) :
    Returns (do
      let versionName ← Json.asString (fields.lookup "versionName")
      let forceYN ← Json.asString (fields.lookup "forceYN")
      v.checkVersion versionName forceYN) ↔
    ∃ versionName forceYN, fields.lookup "versionName" = some (.str versionName) ∧
      fields.lookup "forceYN" = some (.str forceYN) ∧
      (versionName ≠ "" → ∀ str ∈ StringUtils.components versionName, IntText str) := by
  have hstring : ∀ {json : Option Json} {text : String},
      Json.asString json = .ok text ↔ json = some (.str text) := fun {json text} => by
    rcases json with _ | json
    · simp [Json.asString]
    · cases json <;> simp [Json.asString]
  constructor
  · intro h
    obtain ⟨u, h⟩ := h
    obtain ⟨versionName, hname, h⟩ := bind_eq_ok.mp h
    obtain ⟨forceYN, hforce, h⟩ := bind_eq_ok.mp h
    exact ⟨versionName, forceYN, hstring.mp hname, hstring.mp hforce,
      (returns_checkVersion versionName forceYN).mp ⟨u, h⟩⟩
  · intro h
    obtain ⟨versionName, forceYN, hname, hforce, hnumbers⟩ := h
    obtain ⟨u, hu⟩ := (@returns_checkVersion v _ versionName forceYN).mpr hnumbers
    exact ⟨u, bind_eq_ok.mpr ⟨versionName, hstring.mpr hname,
      bind_eq_ok.mpr ⟨forceYN, hstring.mpr hforce, hu⟩⟩⟩

/-- Another answer than an object with status 200 goes through. -/
theorem onHttpReceive_other [Platform]
    (h : type = ConstHTTP.HTTP_OK → ∀ fields, data ≠ some (.obj fields)) :
    Returns (v.onHttpReceive type actionId data) := by
  unfold onHttpReceive
  split
  · split
    · next hok =>
      split
      · next fields => exact absurd rfl (h hok fields)
      · exact .ok _
      · exact .ok _
    · exact .ok _
  · split
    · split <;> exact .ok _
    · split
      · split
        · next hok =>
          split
          · next fields => exact absurd rfl (h hok fields)
          · exact .ok _
          · exact .ok _
        · exact .ok _
      · exact .ok _

theorem onHttpReceive_usable_iff [Platform] :
    Returns (v.onHttpReceive type actionId data) ↔ Usable type actionId data := by
  by_cases hobj : type = ConstHTTP.HTTP_OK ∧ ∃ fields, data = some (.obj fields)
  · obtain ⟨rfl, fields, rfl⟩ := hobj
    have husable : Usable ConstHTTP.HTTP_OK actionId (some (.obj fields)) ↔
        (actionId = ConstHTTP.REQUEST_AI → Kind.string.accepts (fields.lookup "replay")) ∧
        (actionId = ConstHTTP.UPDATE_VERSION → fields ≠ [] →
          ∃ versionName forceYN, fields.lookup "versionName" = some (.str versionName) ∧
            fields.lookup "forceYN" = some (.str forceYN) ∧
            (versionName ≠ "" → ∀ str ∈ StringUtils.components versionName, IntText str)) :=
      ⟨fun h => h rfl fields rfl, fun h _ _ heq => (by cases heq; exact h)⟩
    rw [husable]
    unfold onHttpReceive
    by_cases hAI : actionId = ConstHTTP.REQUEST_AI
    · subst hAI
      rw [if_pos rfl, if_pos rfl]
      refine (Returns.bind_pure_iff _).trans (Kind.returns_asString.trans ?_)
      exact ⟨fun h => ⟨fun _ => h, fun heq => absurd heq (by decide)⟩, fun h => h.1 rfl⟩
    · rw [if_neg hAI]
      by_cases hDB : actionId = ConstHTTP.UPLOAD_DB
      · subst hDB
        exact iff_of_true (.ok _) ⟨fun heq => absurd heq hAI, fun heq => absurd heq (by decide)⟩
      · rw [if_neg hDB]
        by_cases hversion : actionId = ConstHTTP.UPDATE_VERSION
        · subst hversion
          rw [if_pos rfl, if_pos rfl]
          cases fields with
          | nil => exact iff_of_true (.ok _) ⟨fun heq => absurd heq hAI, fun _ h => absurd rfl h⟩
          | cons field fields =>
            refine (returns_versionFields (field :: fields)).trans ?_
            exact ⟨fun h => ⟨fun heq => absurd heq hAI, fun _ _ => h⟩,
              fun h => h.2 rfl (List.cons_ne_nil field fields)⟩
        · rw [if_neg hversion]
          exact iff_of_true (.ok _) ⟨fun heq => absurd heq hAI, fun heq => absurd heq hversion⟩
  · have hother : type = ConstHTTP.HTTP_OK → ∀ fields, data ≠ some (.obj fields) :=
      fun hok fields hdata => hobj ⟨hok, fields, hdata⟩
    exact iff_of_true (onHttpReceive_other hother)
      fun hok fields hdata => absurd hdata (hother hok fields)

end ViewController

theorem MainView.returns_viewDidAppear (hash : HashOrder) (phone : Phone) (isConnect : Bool)
    (v : MainView) : Returns (v.viewDidAppear hash phone isConnect) := by
  obtain ⟨data, hdata, -⟩ :=
    StringUtils.getHTTPPostSendData_bytes ((v.getUserData phone).toDictionary hash phone)
  unfold viewDidAppear updateUser
  rw [hdata]
  dsimp only
  split
  · exact .ok _
  · split <;> exact .ok _

theorem SetBackColorView.returns_onClick {float : Rat → Rat} {w : Nat} {v : SetBackColorView}
    {sender : Fin 18} : Returns (v.onClick float w sender) ↔
      ∃ c, v.backgroundColor sender = some c ∧ UIColor.Converts float w c := by
  constructor
  · intro h
    obtain ⟨u, h⟩ := h
    obtain ⟨c, hc, h⟩ := bind_eq_ok.mp h
    obtain ⟨text, htext, -⟩ := bind_eq_ok.mp h
    exact ⟨c, unwrap_eq_ok.mp hc, (UIColor.hexString_eq_ok.mp htext).1⟩
  · intro h
    obtain ⟨c, hc, hrep⟩ := h
    exact ⟨_, bind_eq_ok.mpr ⟨c, unwrap_eq_ok.mpr hc,
      bind_eq_ok.mpr ⟨_, UIColor.hexString_eq_ok.mpr ⟨hrep, rfl⟩, rfl⟩⟩⟩

/-! ## One action -/

namespace App

variable {nfc : String → String} {today : String} {app : App} {event : Event}

theorem returns_step_iff [Platform] (hfits : Fits app) (htext : Quotable event) :
    (∃ app', step nfc app (today, event) = .ok app') ↔ ¬ Crashes nfc app event := by
  have href : Ledger.step (same nfc) app.abs (app.label (today, event)) = none ↔
      Crashes nfc app event := by
    rw [← @refused_iff_crashes nfc today _ app event hfits]
    exact Ledger.step_eq_none_iff fun _ => rfl
  exact ((ledgerRefinement nfc).returns_step_iff (e := (today, event)) hfits htext).trans
    (not_congr href)

theorem fits_step [Platform] {app' : App} (hfits : Fits app) (htext : Quotable event)
    (h : step nfc app (today, event) = .ok app') : Fits app' :=
  (ledgerRefinement nfc).keeps (e := (today, event)) hfits htext h

end App

namespace Front

variable {env : Surroundings} {now : Moment}

/-- What holds of the screen in front: the contents that are stored can be quoted, the lists show
    what is stored, and the pad is open. -/
def Fits : Front → Prop
  | .store app => App.Fits app
  | .passWord realm v => PlainStore realm ∧ v.Entering
  | front => PlainStore front.device.realm

theorem Fits.plain {front : Front} (h : front.Fits) : PlainStore front.device.realm := by
  cases front with
  | store app => exact App.Fits.plain h
  | passWord realm v => exact h.1
  | _ => exact h

theorem load_fits [Platform] {device : Device} (hplain : PlainStore device.realm)
    (strView : String) : (load env now device strView).Fits := by
  unfold load
  split_ifs
  · exact hplain
  · exact App.fits_openWrite hplain
  · exact App.fits_bucketList hplain
  · exact ⟨hplain, trivial⟩
  · exact ⟨hplain, trivial⟩
  · exact hplain
  · exact ⟨hplain, PassWordView.entering_opened _⟩
  · exact hplain
  · exact hplain
  · exact hplain

theorem follow_fits [Platform] {front : Front} (h : front.Fits) (presented : List Presented) :
    (follow env now front presented).Fits := by
  unfold follow
  split
  · exact load_fits h.plain _
  · exact load_fits h.plain _
  · exact h

theorem ofApp_fits [Platform] {app : App} (h : App.Fits app) : (ofApp env now app).Fits := by
  cases app with
  | main device => exact load_fits h.plain _
  | _ => exact h

theorem setDefaults_fits {front : Front} (h : front.Fits) (defaults : UserDefaults) :
    (front.setDefaults defaults).Fits := by
  cases front with
  | store app =>
    cases app with
    | write v => exact ⟨h.plain, ⟨h.screen.nodup, h.screen.mem_iff⟩⟩
    | main device | detail v | bucketList v | addBucket v | dbMgr device =>
      exact ⟨h.plain, h.screen⟩
  | passWord realm v =>
    exact ⟨h.1, @Front.setDefaults_padOpen (.passWord realm v) h.2 defaults⟩
  | _ => exact h

end Front

namespace Shell

variable {env : Surroundings} {s t : Shell}

/-- The process ends for a reason that has nothing to do with the store: an answer that cannot be
    used, or a request that is lost, whatever is in front by then; a colour that a button does not
    have or that cannot be written. -/
def Halts [Platform] (env : Surroundings) (s : Shell) (event : Event) : Prop :=
  match event, s.front with
  | .receive receiver i type data, _ => ∃ v request,
      s.awaited? receiver i = some (v, request) ∧ ¬ ViewController.Usable type request.id data
  | .lose receiver i, _ => s.awaited? receiver i ≠ none
  | .colour sender, .setBackColor _ v =>
    ¬ ∃ c, v.backgroundColor sender = some c ∧ UIColor.Converts env.float Platform.bitWidth c
  | _, _ => False

/-- The actions that end the process: those, and those of the screens of the store. -/
def Crashes [Platform] (env : Surroundings) (s : Shell) (event : Event) : Prop :=
  Halts env s event ∨
    ∃ app sent, s.front = .store app ∧ event = .store sent ∧ App.Crashes env.nfc app sent

/-- The texts that are typed can be quoted in a predicate. -/
def Quotable : Moment × Event → Prop
  | (_, .store event) => App.Quotable event
  | _ => True

theorem returns_receive_iff [Platform] {receiver : Receiver} {i : Nat} {type : Int}
    {data : Option Json} :
    (∃ t, s.receive receiver i type data = .ok t) ↔
      ¬ Halts env s (.receive receiver i type data) := by
  have hhalts : Halts env s (.receive receiver i type data) ↔ ∃ v request,
      s.awaited? receiver i = some (v, request) ∧
        ¬ ViewController.Usable type request.id data := Iff.rfl
  rw [hhalts]
  unfold receive
  cases hawaited : s.awaited? receiver i with
  | none => exact iff_of_true ⟨s, rfl⟩ fun h => by obtain ⟨v, request, h, -⟩ := h; cases h
  | some p =>
    obtain ⟨v, request⟩ := p
    refine (Returns.bind_pure_iff _).trans (ViewController.onHttpReceive_usable_iff.trans ?_)
    constructor
    · intro husable h
      obtain ⟨v', request', heq, hnot⟩ := h
      cases heq
      exact hnot husable
    · intro h
      by_contra hnot
      exact h ⟨v, request, rfl, hnot⟩

theorem returns_lose_iff [Platform] {receiver : Receiver} {i : Nat} :
    (∃ t, s.lose receiver i = .ok t) ↔ ¬ Halts env s (.lose receiver i) := by
  have hhalts : Halts env s (.lose receiver i) ↔ s.awaited? receiver i ≠ none := Iff.rfl
  rw [hhalts, not_not]
  unfold lose
  cases s.awaited? receiver i with
  | none => exact iff_of_true ⟨s, rfl⟩ rfl
  | some p => exact iff_of_false (fun h => by obtain ⟨t, h⟩ := h; cases h) nofun

/-- Away from the screens of the store, what crashes is what halts. -/
theorem crashes_iff_halts [Platform] {event : Event}
    (h : ∀ app sent, ¬ (s.front = .store app ∧ event = .store sent)) :
    Crashes env s event ↔ Halts env s event := by
  refine or_iff_left ?_
  rintro ⟨app, sent, hfront, hevent, -⟩
  exact h app sent ⟨hfront, hevent⟩

theorem returns_step_iff [Platform] {e : Moment × Event} (h : s.front.Fits) (htext : Quotable e) :
    (∃ t, step env s e = .ok t) ↔ ¬ Crashes env s e.2 := by
  obtain ⟨now, event⟩ := e
  by_cases hstore : ∃ app sent, s.front = .store app ∧ event = .store sent
  · obtain ⟨front, updates, behind⟩ := s
    obtain ⟨app, sent, hfront, hevent⟩ := hstore
    dsimp only at hfront
    subst hfront hevent
    have hcrashes : Crashes env ⟨.store app, updates, behind⟩ (.store sent) ↔
        App.Crashes env.nfc app sent := by
      constructor
      · rintro (hhalts | ⟨app', sent', hfront, hevent, hcrash⟩)
        · cases hhalts
        · cases hfront
          cases hevent
          exact hcrash
      · intro hcrash
        exact .inr ⟨app, sent, rfl, rfl, hcrash⟩
    rw [hcrashes, step_store]
    exact (Returns.bind_pure_iff _).trans (App.returns_step_iff h htext)
  · have hother : ∀ app sent, ¬ (s.front = .store app ∧ event = .store sent) :=
      fun app sent h => hstore ⟨app, sent, h⟩
    rw [crashes_iff_halts hother]
    obtain ⟨front, updates, behind⟩ := s
    have hidle : (∃ t, (.ok ⟨front, updates, behind⟩ : Except Trap Shell) = .ok t) ↔ ¬ False :=
      iff_of_true ⟨_, rfl⟩ not_false
    cases event with
    | token deviceToken =>
      rw [step_token]
      cases front <;> exact iff_of_true ⟨_, rfl⟩ not_false
    | appear shown =>
      cases front with
      | main realm v =>
        obtain ⟨p, hp⟩ := v.returns_viewDidAppear env.hash env.phone now.isConnect
        exact iff_of_true ⟨_, bind_eq_ok.mpr ⟨p, hp, rfl⟩⟩ not_false
      | _ => exact hidle
    | main button => cases front <;> exact iff_of_true ⟨_, rfl⟩ not_false
    | receive receiver i type data =>
      rw [step_receive]
      exact returns_receive_iff
    | lose receiver i =>
      rw [step_lose]
      exact returns_lose_iff
    | store event =>
      cases front with
      | store app => exact absurd ⟨rfl, rfl⟩ (hother app event)
      | _ => exact hidle
    | menu row =>
      cases front with
      | setting realm v => exact iff_of_true ⟨_, step_menu v row⟩ not_false
      | _ => exact hidle
    | pad sender =>
      cases front with
      | passWord realm v =>
        obtain ⟨u, hu, -⟩ := PassWordView.onClick_entering env.nfc h.2 sender
        exact iff_of_true ⟨_, bind_eq_ok.mpr ⟨u, hu, rfl⟩⟩ not_false
      | _ => exact hidle
    | typeName etName => cases front <;> exact iff_of_true ⟨_, rfl⟩ not_false
    | setName => cases front <;> exact iff_of_true ⟨_, rfl⟩ not_false
    | colour sender =>
      cases front with
      | setBackColor realm v =>
        rw [step_colour]
        refine (Returns.bind_pure_iff _).trans (SetBackColorView.returns_onClick.trans ?_)
        exact not_not.symm
      | _ => exact hidle
    | back => cases front <;> exact iff_of_true ⟨_, rfl⟩ not_false

/-- An answer leaves the screen in front as one that the app can come to. -/
theorem Received.fits {front front' : Front} (h : Received front front') (hfits : front.Fits) :
    front'.Fits := by
  cases h with
  | behind => exact hfits
  | main => exact hfits

theorem fits_pad [Platform] {realm : Realm} {v : PassWordView} {updates : List URLRequest}
    {behind : List Left} {now : Moment}
    (h : (Front.passWord realm v).Fits) (sender : UIButton)
    (hstep : step env ⟨.passWord realm v, updates, behind⟩ (now, .pad sender) = .ok t) :
    t.front.Fits := by
  obtain ⟨u, hclick, hcases⟩ := PassWordView.onClick_entering env.nfc h.2 sender
  rw [step_pad, hclick] at hstep
  cases hstep
  rcases hcases with ⟨-, hopen, -⟩ | ⟨pin, -, -, hpresented⟩
  · exact @Front.follow_fits env now _ (.passWord realm u) ⟨h.1, hopen⟩ _
  · rw [hpresented]
    show (Front.load env now ⟨realm, u.defaults⟩ ContextUtils.MAIN_VIEW).Fits
    exact Front.load_fits h.1 _

theorem fits_step [Platform] {e : Moment × Event} (h : s.front.Fits) (htext : Quotable e)
    (hstep : step env s e = .ok t) : t.front.Fits := by
  obtain ⟨now, event⟩ := e
  obtain ⟨front, updates, behind⟩ := s
  cases event with
  | token deviceToken =>
    rw [step_token] at hstep
    cases hstep
    exact Front.setDefaults_fits h _
  | appear shown =>
    cases front with
    | main realm v =>
      rw [step_appear] at hstep
      obtain ⟨⟨u, requests⟩, -, hstep⟩ := bind_eq_ok.mp hstep
      cases hstep
      exact @Front.follow_fits env now _ (.main realm { u with presented := [] }) h _
    | _ => cases hstep; exact h
  | main button =>
    cases front with
    | main realm v =>
      rw [step_main] at hstep
      cases hstep
      exact @Front.follow_fits env now _ (.main realm (v.onClick now.isConnect button)) h _
    | _ => cases hstep; exact h
  | receive receiver i type data =>
    rw [step_receive] at hstep
    exact (receive_received hstep).1.fits h
  | lose receiver i =>
    rw [step_lose] at hstep
    rw [eq_of_lose hstep]
    exact h
  | store event =>
    cases front with
    | store app =>
      obtain ⟨app', happ, hstep⟩ := bind_eq_ok.mp hstep
      cases hstep
      exact Front.ofApp_fits (App.fits_step h htext happ)
    | _ => cases hstep; exact h
  | menu row =>
    cases front with
    | setting realm v =>
      rw [step_menu] at hstep
      cases hstep
      split
      · exact @Front.follow_fits env now _ (.setting realm (v.changeMenuView row)) h _
      · exact h
    | _ => cases hstep; exact h
  | pad sender =>
    cases front with
    | passWord realm v => exact fits_pad h sender hstep
    | _ => cases hstep; exact h
  | typeName etName => cases front <;> (cases hstep; exact h)
  | setName =>
    cases front with
    | setNickName realm v =>
      rw [step_setName] at hstep
      cases hstep
      exact @Front.follow_fits env now _ (.setNickName realm (v.onClick env.nfc env.swift)) h _
    | _ => cases hstep; exact h
  | colour sender =>
    cases front with
    | setBackColor realm v =>
      obtain ⟨u, -, hstep⟩ := bind_eq_ok.mp hstep
      cases hstep
      exact h
    | _ => cases hstep; exact h
  | back =>
    cases front with
    | main realm v => cases hstep; exact h
    | store app => cases hstep; exact h
    | setting | passWord | setNickName | setBackColor | other =>
      cases hstep
      exact @Front.load_fits env now _ _ (Front.Fits.plain h) ContextUtils.MAIN_VIEW

/-- **A run of the app ends without a trap exactly when none of its actions is one of those that
    crash**, from the launch on. The texts that are stored at the launch and those that are typed
    can be quoted: with a quote in it, a text makes a predicate of its own, or none at all. The
    screens that only show what the server has are names, and what becomes of their requests is
    left out. -/
theorem runs_iff_none_crashes [Platform] (env : Surroundings) (now : Moment) {device : Device}
    {events : List (Moment × Event)} (hplain : PlainStore device.realm)
    (htexts : ∀ e ∈ events, Quotable e) :
    (∃ t, Runs (step env) (launched env now device) events t) ↔
      Guarded (step env) (fun s e => ¬ Crashes env s e.2) (launched env now device) events := by
  refine exists_runs_iff (I := fun s => s.front.Fits) ?_ ?_
    (@Front.load_fits env now _ device hplain ContextUtils.MAIN_VIEW)
  · intro s e t he h hstep
    exact fits_step h (htexts e he) hstep
  · intro s e he h
    exact returns_step_iff h (htexts e he)

/-- The app, launched where the network is reached, asks for the version. -/
def online : Shell :=
  launched englishPhone ⟨"24-05-01", true⟩ ⟨Table.empty, fun _ => none⟩

/-- The user goes to the settings, and the server gives a version that is no list of numbers. -/
def betaVersion : List (Moment × Event) :=
  [(⟨"24-05-01", true⟩, .main .btSetting),
    (⟨"24-05-01", true⟩, .receive (.behind 0) 0 ConstHTTP.HTTP_OK
      (some (.obj [("versionName", .str "2.0b"), ("forceYN", .str "N")])))]

theorem runs_iff_none_crashes_betaVersion :
    ¬ ∃ t, Runs (step englishPhone) online betaVersion t := by
  rw [online, runs_iff_none_crashes englishPhone _ (fun c hc => by cases hc)
    (fun e he => by
      rcases List.mem_cons.mp he with rfl | he
      · trivial
      · rw [List.mem_singleton.mp he]
        trivial)]
  intro h
  refine (h.2 _ rfl).1 (.inl ⟨_, _, rfl, fun husable => ?_⟩)
  obtain ⟨versionName, forceYN, hname, -, hnumbers⟩ := (husable rfl _ rfl).2 rfl (by simp)
  have hname : "2.0b" = versionName := by simpa using hname
  have htext := hnumbers (by rw [← hname]; decide) "0b" (by rw [← hname]; decide)
  exact absurd (isSome_intOfString?_iff.mpr htext) (by decide)

end Shell

end KBucket
