import KBucket.Proof.Shell

/-!
# The whole app and the ledger

The screens of the store refine the ledger of dreams when one looks at them alone
(`App.refines_ledger`). Here they are a part of the app: they are loaded by their names from the
main screen and from the settings, and actions of the other screens come in between. The whole
app refines the same ledger (`shell_refines_ledger`), in which everything that is not done on a
screen of the store is nothing. What may come in addition is that the process ends, for one of
the reasons that `Halts` names.

What is assumed is that of the ledger, that the texts can be quoted. The screens that only show
what the server has are names in this model, so what ends the process on them is not among the
halts, and neither is what sharing a bucket may lead to.
-/

namespace KBucket

open Lib

/-- The screen of the ledger that a screen of that name is. -/
def Ledger.place (strView : String) : Ledger.Screen :=
  if strView = ContextUtils.WRITE_VIEW then .todo
  else if strView = ContextUtils.BUCKET_LIST_VIEW then .achieved
  else if strView = "AddBucketView" then .suggestions
  else if strView = "DBMgrView" then .settings
  else .home

namespace Front

variable {env : Surroundings} {now : Moment}

def abs : Front → Ledger.State
  | .store app => app.abs
  | front => ⟨front.device.realm.ledger, .home⟩

/-- No screen waits to be loaded after the one in front. -/
def Quiet : Front → Prop
  | .main _ v => v.presented = []
  | .setting _ v => v.presented = []
  | .setNickName _ v => v.presented = []
  | _ => True

theorem load_abs [Platform] (device : Device) (strView : String) :
    (load env now device strView).abs = ⟨device.realm.ledger, Ledger.place strView⟩ := by
  unfold load Ledger.place
  split
  · next hmain => rw [hmain]; rfl
  split
  · show App.abs (.write (.viewDidLoad env.nfc device)) = _
    rw [App.abs, WriteView.viewDidLoad, WriteView.sort_device]
  split
  · rfl
  split
  · rfl
  split
  · rfl
  split_ifs <;> rfl

theorem load_quiet [Platform] (device : Device) (strView : String) :
    (load env now device strView).Quiet := by
  unfold load
  split_ifs
  · show (MainView.viewDidLoad Platform.bitWidth now.isConnect device.defaults).presented = []
    unfold MainView.viewDidLoad
    dsimp only
    split <;> rfl
  · trivial
  · trivial
  · trivial
  · trivial
  · rfl
  · trivial
  · show (SetNickNameView.viewDidLoad device.defaults).presented = []
    unfold SetNickNameView.viewDidLoad
    dsimp only
    split <;> rfl
  · trivial
  · trivial

theorem setDefaults_quiet {front : Front} (h : front.Quiet) (defaults : UserDefaults) :
    (front.setDefaults defaults).Quiet := by
  cases front with
  | store app => cases app <;> trivial
  | _ => exact h

theorem setDefaults_abs (front : Front) (defaults : UserDefaults) :
    (front.setDefaults defaults).abs = front.abs := by
  cases front with
  | store app => cases app <;> rfl
  | _ => rfl

/-- A screen that leaves for the main screen is the main screen to the ledger already. -/
theorem ofApp_abs [Platform] (app : App) : (ofApp env now app).abs = app.abs := by
  cases app with
  | main device => exact load_abs device ContextUtils.MAIN_VIEW
  | _ => rfl

theorem ofApp_quiet [Platform] (app : App) : (ofApp env now app).Quiet := by
  cases app with
  | main device => exact load_quiet device ContextUtils.MAIN_VIEW
  | _ => trivial

/-- The screen in front stays, or one is loaded by its name. -/
inductive Followed (front : Front) (presented : List Presented) (screen : Ledger.Screen) : Prop
  | stays : presented = [] → front.abs = ⟨front.device.realm.ledger, screen⟩ → front.Quiet →
      Followed front presented screen
  | loads (strView : String) : presented = [.view strView] → Ledger.place strView = screen →
      Followed front presented screen

theorem Followed.abs [Platform] {front : Front} {presented : List Presented}
    {screen : Ledger.Screen} (h : Followed front presented screen) :
    (follow env now front presented).abs = ⟨front.device.realm.ledger, screen⟩ ∧
      (follow env now front presented).Quiet := by
  cases h with
  | stays hnil habs hquiet =>
    rw [hnil]
    exact ⟨habs, hquiet⟩
  | loads strView hview hplace =>
    rw [hview, ← hplace]
    exact ⟨load_abs front.device strView, load_quiet front.device strView⟩

end Front

/-! ## The screens that are left -/

namespace MainView

variable {v : MainView}

/-- Where a button leads in the ledger. -/
def place : Button → Ledger.Screen
  | .btWrite => .todo
  | .btComplete => .achieved
  | _ => .home

theorem onClick_followed (realm : Realm) (hquiet : v.presented = []) (isConnect : Bool)
    (button : Button) :
    Front.Followed (.main realm (v.onClick isConnect button))
      (v.onClick isConnect button).presented (place button) := by
  have hview : ∀ strView, (v.changeView strView).presented = [.view strView] := fun strView => by
    rw [changeView, hquiet, List.nil_append]
  cases button with
  | btAI => exact .stays hquiet rfl hquiet
  | btWrite => exact .loads "WriteView" (hview _) (by decide)
  | btComplete => exact .loads "BucketListView" (hview _) (by decide)
  | btShare => exact .loads "ShareListView" (hview _) (by decide)
  | btRank => exact .loads "RankListView" (hview _) (by decide)
  | btSetting => exact .loads "SettingView" (hview _) (by decide)
  | btNotice => exact .loads "NoticeView" (hview _) (by decide)

theorem viewDidAppear_presented {u : MainView} {hash : HashOrder} {phone : Phone}
    {isConnect : Bool} {requests : List URLRequest} (hquiet : v.presented = [])
    (h : v.viewDidAppear hash phone isConnect = .ok (u, requests)) :
    u.presented = [] ∨ u.presented = [.view ContextUtils.SET_NICKNAME_VIEW] := by
  unfold viewDidAppear at h
  dsimp only at h
  split at h
  · cases h
    exact .inr (by rw [changeView, hquiet, List.nil_append])
  · split at h
    · obtain ⟨request, -, h⟩ := bind_eq_ok.mp h
      cases h
      exact .inl hquiet
    · cases h
      exact .inl hquiet

end MainView

namespace SettingView

/-- Where an item of the menu leads in the ledger. -/
def place (menu : Int) : Ledger.Screen :=
  if menu = 2 then .settings else if menu = 9 then .suggestions else .home

theorem changeMenuView_followed (realm : Realm) {v : SettingView} (hquiet : v.presented = [])
    (menu : Int) :
    Front.Followed (.setting realm (v.changeMenuView menu)) (v.changeMenuView menu).presented
      (place menu) := by
  have hview : ∀ strView, (v.changeView strView).presented = [.view strView] := fun strView => by
    rw [changeView, hquiet, List.nil_append]
  unfold changeMenuView
  split
  · next h => exact .loads _ (hview _) (by rw [h]; decide)
  split
  · next h => exact .stays hquiet (by rw [h]; rfl) hquiet
  split
  · next h => exact .loads _ (hview _) (by rw [h]; decide)
  split
  · next h => exact .loads _ (hview _) (by rw [h]; decide)
  split
  · next h => exact .loads _ (hview _) (by rw [h]; decide)
  split
  · next h => exact .loads _ (hview _) (by rw [h]; decide)
  split
  · next h => exact .loads _ (hview _) (by rw [h]; decide)
  split
  · next h => exact .stays hquiet (by rw [h]; rfl) hquiet
  split
  · next h => exact .stays hquiet (by rw [h]; rfl) hquiet
  split
  · next h => exact .loads _ (hview _) (by rw [h]; decide)
  · next _ _ htwo _ _ _ _ _ _ hnine =>
    exact .stays hquiet (by rw [place, if_neg htwo, if_neg hnine]; rfl) hquiet

end SettingView

namespace SetNickNameView

theorem onClick_followed (realm : Realm) {nfc : String → String} {swift : StringUtils.Characters}
    {v : SetNickNameView} (hquiet : v.presented = []) :
    Front.Followed (.setNickName realm (v.onClick nfc swift)) (v.onClick nfc swift).presented
      .home := by
  unfold onClick
  split
  · exact .stays hquiet rfl hquiet
  · split
    · exact .stays hquiet rfl hquiet
    · refine .loads ContextUtils.MAIN_VIEW ?_ (by decide)
      show v.presented ++ _ = _
      rw [hquiet]
      rfl

end SetNickNameView

namespace Shell

variable {env : Surroundings} {s t : Shell}

def abs (s : Shell) : Ledger.State := s.front.abs

/-- Going from the main screen to a screen of the ledger. -/
def go : Ledger.Screen → Ledger.Event
  | .todo => .goTodo
  | .achieved => .goAchieved
  | .suggestions => .goSuggestions
  | .settings => .goSettings
  | _ => .idle

/-- What an action is in the ledger. -/
def dream [Platform] (s : Shell) : Moment × Event → Ledger.Event
  | (now, event) =>
    match s.front, event with
    | .store app, .store event => app.label (now.today, event)
    | .main _ _, .main button => go (MainView.place button)
    | .setting _ v, .menu row =>
      if row < v.numberOfRowsInSection then go (SettingView.place row) else .idle
    | _, _ => .idle

theorem step_go (same : String → String → Prop) {ledger : Ledger} {screen : Ledger.Screen}
    (h : ∀ form, screen ≠ .form form) :
    Ledger.step same ⟨ledger, .home⟩ (go screen) = some ⟨ledger, screen⟩ := by
  cases screen with
  | form form => exact absurd rfl (h form)
  | _ => rfl

theorem place_ne_form (menu : Int) (form : Ledger.Form) : SettingView.place menu ≠ .form form := by
  unfold SettingView.place
  split_ifs <;> exact nofun

/-- The screen in front is one of the app's, and none waits to be loaded. -/
structure Fits (s : Shell) : Prop where
  front : s.front.Fits
  quiet : s.front.Quiet

/-- What an action leads to, in the ledger. -/
def Leads (env : Surroundings) (s t : Shell) (event : Ledger.Event) : Prop :=
  Ledger.step (App.same env.nfc) s.abs event = some t.abs ∧ t.front.Quiet

/-- An answer is nothing in the ledger, and presents nothing. -/
theorem Received.abs {front front' : Front} (h : Received front front') :
    front'.abs = front.abs := by
  cases h with
  | behind => rfl
  | main => rfl

theorem Received.quiet {front front' : Front} (h : Received front front') (hquiet : front.Quiet) :
    front'.Quiet := by
  cases h with
  | behind => exact hquiet
  | main => exact hquiet

/-- What leaves the store and the screen of the ledger alone is nothing there. -/
theorem leads_idle (habs : t.abs = s.abs) (hquiet : t.front.Quiet) : Leads env s t .idle := by
  refine ⟨?_, hquiet⟩
  rw [habs]
  exact Ledger.step_idle _ _

/-- A screen that is no screen of the ledger is left for the main screen. -/
theorem leads_back [Platform] {now : Moment} {device : Device} {updates : List URLRequest}
    {behind : List Left} (habs : s.abs = ⟨device.realm.ledger, .home⟩) :
    Leads env s ⟨Front.load env now device ContextUtils.MAIN_VIEW, updates, behind⟩ .idle := by
  apply leads_idle
  · rw [habs]
    exact @Front.load_abs env now _ device ContextUtils.MAIN_VIEW
  · exact @Front.load_quiet env now _ device ContextUtils.MAIN_VIEW

/-- A screen that is no screen of the ledger is left for another screen, or stays. -/
theorem leads_follow [Platform] {now : Moment} {front : Front} {presented : List Presented}
    {screen : Ledger.Screen} {updates : List URLRequest} {behind : List Left}
    (habs : s.abs = ⟨front.device.realm.ledger, .home⟩) (hscreen : ∀ form, screen ≠ .form form)
    (h : Front.Followed front presented screen) :
    Leads env s ⟨Front.follow env now front presented, updates, behind⟩ (go screen) := by
  obtain ⟨hfollow, hquiet⟩ := @Front.Followed.abs env now _ front presented screen h
  refine ⟨?_, hquiet⟩
  show _ = some (Front.abs _)
  rw [habs, hfollow]
  exact step_go _ hscreen

theorem leads_store [Platform] {now : Moment} {app : App} {updates : List URLRequest}
    {behind : List Left} {event : App.Event}
    (hfits : App.Fits app) (htext : App.Quotable event)
    (hstep : step env ⟨.store app, updates, behind⟩ (now, .store event) = .ok t) :
    Leads env ⟨.store app, updates, behind⟩ t (app.label (now.today, event)) := by
  obtain ⟨app', happ, hstep⟩ := bind_eq_ok.mp hstep
  cases hstep
  refine ⟨?_, Front.ofApp_quiet app'⟩
  cases @App.matches_step env.nfc now.today _ app event hfits htext with
  | ok u hu _ hspec =>
    cases happ.symm.trans hu
    show _ = some (Front.ofApp env now app').abs
    rw [Front.ofApp_abs]
    exact hspec
  | trap x hx _ => cases happ.symm.trans hx

/-- **One action of the app is one action of the ledger**, or nothing there. -/
theorem leads_step [Platform] {e : Moment × Event} (h : Fits s) (htext : Quotable e)
    (hstep : step env s e = .ok t) : Leads env s t (s.dream e) := by
  obtain ⟨hfits, hquiet⟩ := h
  obtain ⟨now, event⟩ := e
  obtain ⟨front, updates, behind⟩ := s
  have hhome : ∀ form, Ledger.Screen.home ≠ .form form := nofun
  cases event with
  | token deviceToken =>
    have hidle : dream ⟨front, updates, behind⟩ (now, .token deviceToken) = .idle := by
      cases front <;> rfl
    rw [step_token] at hstep
    cases hstep
    rw [hidle]
    exact leads_idle (Front.setDefaults_abs front _) (Front.setDefaults_quiet hquiet _)
  | appear shown =>
    cases front with
    | main realm v =>
      rw [step_appear] at hstep
      obtain ⟨⟨u, requests⟩, happear, hstep⟩ := bind_eq_ok.mp hstep
      cases hstep
      refine leads_follow rfl hhome ?_
      rcases MainView.viewDidAppear_presented hquiet happear with hnone | hname
      · rw [hnone, ite_self]
        exact .stays rfl rfl rfl
      · cases shown with
        | true => exact .loads ContextUtils.SET_NICKNAME_VIEW hname (by decide)
        | false => exact .stays rfl rfl rfl
    | _ => cases hstep; exact leads_idle rfl hquiet
  | main button =>
    cases front with
    | main realm v =>
      rw [step_main] at hstep
      cases hstep
      refine leads_follow rfl ?_ (MainView.onClick_followed realm hquiet now.isConnect button)
      cases button <;> exact nofun
    | _ => cases hstep; exact leads_idle rfl hquiet
  | receive receiver i type data =>
    have hidle : dream ⟨front, updates, behind⟩ (now, .receive receiver i type data) = .idle := by
      cases front <;> rfl
    rw [step_receive] at hstep
    obtain ⟨hfront, -⟩ := receive_received hstep
    rw [hidle]
    exact leads_idle hfront.abs (hfront.quiet hquiet)
  | lose receiver i =>
    have hidle : dream ⟨front, updates, behind⟩ (now, .lose receiver i) = .idle := by
      cases front <;> rfl
    rw [step_lose] at hstep
    rw [hidle, eq_of_lose hstep]
    exact leads_idle rfl hquiet
  | store event =>
    cases front with
    | store app => exact leads_store hfits htext hstep
    | _ => cases hstep; exact leads_idle rfl hquiet
  | menu row =>
    cases front with
    | setting realm v =>
      rw [step_menu] at hstep
      cases hstep
      show Leads env _ _ (if row < v.numberOfRowsInSection then _ else _)
      split
      · exact leads_follow rfl (place_ne_form row)
          (SettingView.changeMenuView_followed realm hquiet row)
      · exact leads_idle rfl hquiet
    | _ => cases hstep; exact leads_idle rfl hquiet
  | pad sender =>
    cases front with
    | passWord realm v =>
      obtain ⟨u, hclick, hcases⟩ := PassWordView.onClick_entering env.nfc hfits.2 sender
      rw [step_pad, hclick] at hstep
      cases hstep
      rcases hcases with ⟨-, hopen, -⟩ | ⟨pin, -, -, hpresented⟩
      · exact leads_follow rfl hhome (.stays hopen.presented rfl trivial)
      · exact leads_follow rfl hhome (.loads ContextUtils.MAIN_VIEW hpresented (by decide))
    | _ => cases hstep; exact leads_idle rfl hquiet
  | typeName etName => cases front <;> (cases hstep; exact leads_idle rfl hquiet)
  | setName =>
    cases front with
    | setNickName realm v =>
      rw [step_setName] at hstep
      cases hstep
      exact leads_follow rfl hhome (SetNickNameView.onClick_followed realm hquiet)
    | _ => cases hstep; exact leads_idle rfl hquiet
  | colour sender =>
    cases front with
    | setBackColor realm v =>
      obtain ⟨u, -, hstep⟩ := bind_eq_ok.mp hstep
      cases hstep
      exact leads_idle rfl trivial
    | _ => cases hstep; exact leads_idle rfl hquiet
  | back =>
    cases front with
    | main realm v => cases hstep; exact leads_idle rfl hquiet
    | store app => cases hstep; exact leads_idle rfl hquiet
    | _ => cases hstep; exact leads_back rfl

/-! ## Whole runs -/

/-- The ledger, when the process may end for other reasons: then there is no action. -/
noncomputable def ledgerStep (env : Surroundings) (state : Ledger.State)
    (event : Option Ledger.Event) : Option Ledger.State :=
  event.bind (Ledger.step (App.same env.nfc) state)

open Classical in
/-- What an action is in the ledger, if the process does not end with it for another reason. -/
noncomputable def label [Platform] (env : Surroundings) (s : Shell) (e : Moment × Event) :
    Option Ledger.Event :=
  if Halts env s e.2 then none else some (s.dream e)

theorem matches_step [Platform] {e : Moment × Event} (h : Fits s) (htext : Quotable e) :
    Matches Fits abs (step env s e) (ledgerStep env s.abs (label env s e)) := by
  have hreturns := @returns_step_iff env s _ e h.front htext
  cases hstep : step env s e with
  | ok t =>
    have hcrash : ¬ Crashes env s e.2 := hreturns.mp ⟨t, hstep⟩
    have hhalts : ¬ Halts env s e.2 := fun h => hcrash (.inl h)
    obtain ⟨hspec, hquiet⟩ := leads_step h htext hstep
    refine .ok t rfl ⟨fits_step h.front htext hstep, hquiet⟩ ?_
    rw [label, if_neg hhalts]
    exact hspec
  | error x =>
    have hcrash : Crashes env s e.2 := by
      by_contra hcrash
      obtain ⟨t, ht⟩ := hreturns.mpr hcrash
      rw [hstep] at ht
      cases ht
    refine .trap x rfl ?_
    by_cases hhalts : Halts env s e.2
    · rw [label, if_pos hhalts]
      rfl
    · obtain ⟨app, sent, hfront, hevent, hsent⟩ := hcrash.resolve_left hhalts
      rw [label, if_neg hhalts]
      obtain ⟨now, event⟩ := e
      obtain ⟨front, updates, behind⟩ := s
      dsimp only at hfront hevent
      subst hfront hevent
      have hrefused := (@App.refused_iff_crashes env.nfc now.today _ app sent h.front).mpr hsent
      have hsame : ∀ text, App.same env.nfc text text := fun _ => rfl
      exact (Ledger.step_eq_none_iff hsame).mpr hrefused

/-- The whole app as a refinement of the ledger. -/
noncomputable def ledgerRefinement [Platform] (env : Surroundings) :
    Refinement (step env) (ledgerStep env) where
  Inv := Fits
  Guard := Quotable
  abs := abs
  label := label env
  sound h htext := matches_step h htext

noncomputable def labels [Platform] (env : Surroundings) :
    Shell → List (Moment × Event) → List (Option Ledger.Event) := (ledgerRefinement env).labels

/-- **The app refines the ledger**: launched on a store whose contents can be quoted, and whatever
    is done on whatever screens with texts that can be, the dreams are what the ledger makes of
    what was done on the screens of the store, and the process ends exactly when the ledger
    refuses one of these actions or one that halts comes first. A text with a quote in it can
    delete other dreams than its own, so the ledger says nothing of it. -/
theorem shell_refines_ledger [Platform] (env : Surroundings) (now : Moment) {device : Device}
    {events : List (Moment × Event)} (hplain : PlainStore device.realm)
    (htexts : ∀ e ∈ events, Quotable e) :
    (outcome (step env) (launched env now device) events).toOption.map abs
      = (labels env (launched env now device) events).foldlM (ledgerStep env)
          ⟨device.realm.ledger, .home⟩ := by
  have hfits : Fits (launched env now device) :=
    ⟨@Front.load_fits env now _ device hplain ContextUtils.MAIN_VIEW,
      @Front.load_quiet env now _ device ContextUtils.MAIN_VIEW⟩
  have hstart : (launched env now device).abs = ⟨device.realm.ledger, .home⟩ :=
    @Front.load_abs env now _ device ContextUtils.MAIN_VIEW
  rw [← hstart]
  exact (ledgerRefinement env).run hfits htexts

/-- A token arrives, and a text is added to the to-do list. -/
def tokenAndText : List (Moment × Event) :=
  [(⟨"24-05-01", false⟩, .token [255]), (⟨"24-05-01", false⟩, .main .btWrite),
    (⟨"24-05-01", false⟩, .store (.write (.btAdd "Lyon")))]

theorem shell_refines_ledger_lyon :
    ∃ t, outcome (step englishPhone)
        (launched englishPhone ⟨"24-05-01", false⟩ WriteView.halfAchieved) tokenAndText = .ok t ∧
      (labels englishPhone (launched englishPhone ⟨"24-05-01", false⟩ WriteView.halfAchieved)
        tokenAndText).foldlM (ledgerStep englishPhone)
          ⟨WriteView.halfAchieved.realm.ledger, .home⟩ = some t.abs := by
  have htexts : ∀ e ∈ tokenAndText, Quotable e := by
    simp only [tokenAndText, List.forall_mem_cons, List.not_mem_nil, false_implies, implies_true,
      and_true]
    exact ⟨trivial, trivial, (by decide : Predicate.Plain "Lyon")⟩
  have hrun := shell_refines_ledger englishPhone ⟨"24-05-01", false⟩ App.plain_halfAchieved htexts
  exact ⟨_, rfl, hrun.symm⟩

end Shell
end KBucket
