import Dethernety.Console.PostureSessions

/-!
# The admin gate

The gate decides from one read of the mode file, the handler behind it acts on later ones. While the file of a change
names the team and the service that the gate has read, every change of a gated route was made for an administrator of
that team (`adminGate_complete`); a connect in between leads around the gate (`connectBetween_unadministered`).
-/

open List Option Bool

namespace Console.Daemon

open Threads ModuleInstall

/-- A route behind the admin gate. -/
def Request.isGated : Request → Bool
  | session _ | cloudApply _ _ _ _ => false
  | _ => true

def Request.token : Request → String
  | session _ => ""
  | cloudApply _ token _ _ | cloudDisable _ token | cloudAllowlist _ token _ | cloudKgUpdate _ token _
  | mountModule _ token _ _ _ | unmountModule _ token _ | installArtifact _ token _ _ _ | removeArtifact _ token _ =>
    token

/-- The content base and the team of a cloud file that names a well-formed team, a usable base and a content scope. -/
def askable (checks : Checks) (file : Option Text) : Option (String × String) :=
  (cloudModeFile file).bind fun vars =>
    let (base, team, malformed) := contentTargetFrom checks vars
    if team = "" || malformed || base = "" || !canAskForEntitlements vars then none else some (base, team)

def differsInModules (d d' : Disk) : Bool :=
  (d.keys ++ d'.keys).any fun p => p.moduleName?.isSome && d.get? p ≠ d'.get? p

/-- A step that changes a module directory or the mode file. -/
def changes (st : LogStep) : Bool :=
  st.before.file ≠ st.after.file || differsInModules st.before.modules st.after.modules

/-- The first that a request read of the mode file, which is what its gate decides from. -/
def gateRead (past : List (Script.Event Answer)) : Option (Option Text) :=
  past.findSome? fun
    | ⟨.readModeLayer, file⟩ => some file
    | _ => none

/-- What the gate read names the same service and the same team as the file at the time of a change. -/
def onTarget (checks : Checks) (st : LogStep) : Bool :=
  if st.request.isGated && changes st && (askable checks st.before.file).isSome then
    (gateRead st.past).bind (askable checks) = askable checks st.before.file
  else true

/-- The content service answered that the caller is an administrator of the team that the file names. -/
def Administered (checks : Checks) (st : LogStep) : Prop :=
  st.request.isGated = true → changes st = true → ∀ base team, askable checks st.before.file = some (base, team) →
    ⟨.resolveEntitlements base st.request.token team, some true⟩ ∈ st.past

/-- The gate was passed: who it asked for is an administrator. -/
def Passed (checks : Checks) (token : String) (past : List (Script.Event Answer)) : Prop :=
  ∃ file, gateRead past = some file ∧ ∀ base team, askable checks file = some (base, team) →
    ⟨.resolveEntitlements base token team, some true⟩ ∈ past

def gateContract (checks : Checks) : Contract Answer Request World where
  interleaved := true
  serves _ := true
  inv _ _ := True
  ok _ := onTarget checks
  good _ := Administered checks

variable {env : Platform} {i : ℕ} {req : Request} {o : Outside} {w w' : World} {c : Call} {a : Answer c}
  {past : List (Script.Event Answer)} {log : List LogStep}

lemma gateRead_append (h : gateRead past = none) (e : Script.Event Answer) :
    gateRead (past ++ [e]) = gateRead [e] := by
  unfold gateRead at h ⊢
  rw [findSome?_append, h]
  rfl

lemma Passed.append {checks : Checks} {token : String} (h : Passed checks token past) (e : Script.Event Answer) :
    Passed checks token (past ++ [e]) := by
  obtain ⟨file, hread, hadmin⟩ := h
  refine ⟨file, ?_, fun base team htarget => mem_append_left _ (hadmin base team htarget)⟩
  unfold gateRead at hread ⊢
  rw [findSome?_append, hread]
  rfl

lemma changes_eq_false (hexec : (machine env).exec i req c o w = some (a, w')) (hfile : c.changesFile = false)
    (hmodules : c.changesModules = false) : changes ⟨i, req, past, c, a, w, w'⟩ = false := by
  have hframe := exec_frame hexec
  have hsame : differsInModules w.modules w.modules = false := by
    refine any_eq_false.2 fun p _ => ?_
    simp
  show (decide (w.file ≠ w'.file) || differsInModules w.modules w'.modules) = false
  rw [hframe.file hfile, hframe.modules hmodules]
  simpa using hsame

lemma kept_of_reading (hexec : (machine env).exec i req c o w = some (a, w')) (hfile : c.changesFile = false)
    (hmodules : c.changesModules = false) : (gateContract env.checks).Kept log ⟨i, req, past, c, a, w, w'⟩ :=
  ⟨trivial, fun _ hchanges => absurd (hchanges.symm.trans (changes_eq_false hexec hfile hmodules)) nofun⟩

lemma passed_triple {next : Handler Response} :
    (gateContract env.checks).Triple (machine env).exec i req (fun past _ _ => Passed env.checks req.token past) next
      fun _ _ _ _ => True := by
  refine .mono (.every (P := fun _ => True) (Contract.stable_past _) ?_ ?_) (fun _ _ _ _ hs => hs)
    fun _ _ _ _ _ _ => trivial
  · intro c _ past log w o a w' _ hpassed _ hok
    refine ⟨⟨trivial, fun hgated hchanges base team htarget => ?_⟩, hpassed.append _⟩
    obtain ⟨file, hread, hadmin⟩ := hpassed
    apply hadmin base team
    simpa [onTarget, hgated, hchanges, htarget, hread, gateContract] using hok
  · exact Script.every_of_forall fun _ => trivial

lemma passed_of_askable {checks : Checks} {token : String} {file : Option Text} (hread : gateRead past = some file)
    (hfile : askable checks file = none) : Passed checks token past :=
  ⟨file, hread, fun _ _ htarget => absurd (hfile.symm.trans htarget) nofun⟩

/-- The check that a gate makes when it asks, and what it knows then. -/
lemma askAdmin_triple {file : Option Text} {base team : String}
    (hfile : ∀ b t, askable env.checks file = some (b, t) → b = base ∧ t = team) :
    (gateContract env.checks).Triple (machine env).exec i req (fun past _ _ => gateRead past = some file)
      (do Script.require (req.token ≠ "") .notSignedIn
          let admin ← Script.orThrow (← ask (.resolveEntitlements base req.token team)) .couldNotCheck
          Script.require admin .notAnAdmin)
      fun r past _ _ => r = .ok ⟨⟩ → Passed env.checks req.token past := by
  refine .require (fun _ => ?_) fun _ _ _ _ _ => nofun
  refine Contract.Triple.bind (R := fun r past _ _ => gateRead past = some file ∧
    ∀ answer, r = .ok answer → ⟨.resolveEntitlements base req.token team, answer⟩ ∈ past) ?_ (fun answer => ?_)
    fun _ _ _ _ _ _ => nofun
  · refine .ask (Contract.stable_past _) fun past log w o a w' _ hread hexec _ => ?_
    refine ⟨kept_of_reading hexec rfl rfl, ?_, fun answer h => ?_⟩
    · unfold gateRead at hread ⊢
      rw [findSome?_append, hread]
      rfl
    · cases h
      exact mem_append_right _ (mem_singleton_self _)
  · refine .orThrow (fun admin hadmin => ?_) fun _ _ _ _ _ => nofun
    cases admin with
    | false => exact .ret fun _ _ _ _ _ => nofun
    | true =>
      refine .ret fun past log w _ hs _ => ⟨file, hs.1, fun b t htarget => ?_⟩
      obtain ⟨rfl, rfl⟩ := hfile b t htarget
      exact hadmin ▸ hs.2 answer rfl

lemma gateCheck_triple (recoveryPath : Bool) :
    (gateContract env.checks).Triple (machine env).exec i req (fun past _ _ => gateRead past = none)
      (gateCheck env recoveryPath req.token) fun r past _ _ => r = .ok ⟨⟩ → Passed env.checks req.token past := by
  refine Contract.Triple.bind (R := fun r past _ _ => ∀ file, r = .ok file → gateRead past = some file) ?_
    (fun file => ?_) fun _ _ _ _ _ _ => nofun
  · refine .ask (Contract.stable_past _) fun past log w o a w' _ hread hexec _ => ?_
    refine ⟨kept_of_reading hexec rfl rfl, fun file h => ?_⟩
    cases h
    rw [gateRead_append hread]
    rfl
  · refine Contract.Triple.weaken ?_ fun past _ _ _ hs => hs file rfl
    cases hvars : cloudModeFile file with
    | none =>
      refine .ret fun past log w _ hread _ => passed_of_askable hread ?_
      rw [askable, hvars]
      rfl
    | some vars =>
      have hask : askable env.checks file = (cloudModeFile file).bind fun vars =>
          let (base, team, malformed) := contentTargetFrom env.checks vars
          if team = "" || malformed || base = "" || !canAskForEntitlements vars then none else some (base, team) := rfl
      rw [hvars, bind_some] at hask
      simp only at hask ⊢
      generalize contentTargetFrom env.checks vars = target at hask ⊢
      obtain ⟨base, team, malformed⟩ := target
      split_ifs with hteam hnever
      · refine .ret fun past log w _ hread _ => passed_of_askable hread ?_
        rw [hask, if_pos]
        simp only [and_eq_true, decide_eq_true_eq] at hteam
        simp [hteam.1]
      · cases recoveryPath with
        | false => exact .ret fun _ _ _ _ _ => nofun
        | true =>
          refine .ret fun past log w _ hread _ => passed_of_askable hread ?_
          rw [hask, if_pos]
          simp only [or_eq_true, decide_eq_true_eq, not_eq_true'] at hnever ⊢
          tauto
      · refine askAdmin_triple fun b t hbt => ?_
        rw [hask] at hbt
        split_ifs at hbt
        cases hbt
        exact ⟨rfl, rfl⟩

lemma ungated_triple {script : Handler Response} (hreq : req.isGated = false) :
    (gateContract env.checks).Triple (machine env).exec i req (fun past _ _ => gateRead past = none) script
      fun _ _ _ _ => True := by
  refine .mono (.every (P := fun _ => True) (K := fun _ _ _ => True) (Contract.stable_past fun _ => True) ?_ ?_)
    (fun _ _ _ _ _ => trivial) fun _ _ _ _ _ _ => trivial
  · intro c _ past log w o a w' _ _ _ _
    exact ⟨⟨trivial, fun hgated => absurd (hreq.symm.trans hgated) nofun⟩, trivial⟩
  · exact Script.every_of_forall fun _ => trivial

lemma gatedRoute_triple (recoveryPath : Bool) (next : Handler Response) :
    (gateContract env.checks).Triple (machine env).exec i req (fun past _ _ => gateRead past = none)
      (requireSession req.sessionId (gate env recoveryPath req.token next)) fun _ _ _ _ => True := by
  refine Contract.Triple.bind (R := fun _ past _ _ => gateRead past = none) ?_ (fun valid => ?_)
    fun _ _ _ _ _ _ => trivial
  · refine .ask (Contract.stable_past _) fun past log w o a w' _ hread hexec _ => ?_
    exact ⟨kept_of_reading hexec rfl rfl, gateRead_append hread _⟩
  · refine .require (fun _ => ?_) fun _ _ _ _ _ => trivial
    refine (gateCheck_triple recoveryPath).bind (fun _ => ?_) fun _ _ _ _ _ _ => trivial
    exact passed_triple.weaken fun _ _ _ _ hs => hs rfl

lemma gatedRoutes_triple :
    (gateContract env.checks).Triple (machine env).exec i req (fun past _ _ => gateRead past = none)
      ((machine env).program req) fun _ _ _ _ => True := by
  cases req with
  | session _ | cloudApply => exact ungated_triple rfl
  | cloudDisable => exact gatedRoute_triple true _
  | cloudAllowlist _ _ _ | cloudKgUpdate _ _ _ | mountModule _ _ _ _ _ | unmountModule _ _ _
  | installArtifact _ _ _ _ _ | removeArtifact => exact gatedRoute_triple false _

/-- In every run in which the files of the changes name what the gates have read, every change of a gated route was
made for an administrator of the team of the deployment. -/
theorem adminGate_complete {p : Pool} (h : (system env).Reachable
    (fun p e => (machine env).allows (fun _ => true) (fun _ => onTarget env.checks) p e = true) p) :
    ∀ st ∈ p.log, Administered env.checks st := by
  have hholds : (gateContract env.checks).Holds (machine env) (fun _ _ _ _ _ _ => True) p := by
    refine .of_reachable rfl (fun _ _ _ => Contract.stable_past fun _ => True) (fun _ _ => trivial) ?_ h
    exact fun i req w _ _ => gatedRoutes_triple [] [] w trivial rfl
  intro st hst
  obtain ⟨before, after, hlog⟩ := append_of_mem hst
  exact hholds.good before st after hlog

def lines (l : List (String × String)) : Text :=
  l.flatMap fun p => varLine p ++ ['\n']

def sampleTeamFile : Text :=
  lines [("DEPLOYMENT_TEAM_ID", "team"), ("MODULE_CONTENT_BASE_URL", "https://content.example"),
    ("OIDC_SCOPE", "openid https://content.example/content.access"), ("OIDC_SHARED_POOL", "true")]

def sampleTeamRecipe : Text :=
  lines [("OIDC_ISSUER", "https://id.example"), ("OIDC_JWKS_URI", "https://id.example/jwks"), ("OIDC_CLIENT_ID", "one"),
    ("OIDC_AUDIENCE", "app"), ("OIDC_SCOPE", "openid https://content.example/content.access"),
    ("OIDC_DOMAIN", "id.example"), ("OIDC_SHARED_POOL", "true"), ("PORTAL_ORIGIN", "https://portal.example"),
    ("MODULE_CONTENT_BASE_URL", "https://content.example"), ("DEPLOYMENT_ALLOWLIST", "ada"),
    ("DEPLOYMENT_TEAM_ID", "team")]

/-- A daemon that is started on such a file. -/
def sampleTeamPool : Pool := ⟨{ sampleWorld with file := some sampleTeamFile }, ∅, []⟩

lemma started_sampleTeamPool : (system samplePlatform).init sampleTeamPool :=
  ⟨⟨rfl, rfl, rfl, rfl, rfl⟩, rfl, rfl⟩

def sampleAdmin : Outside :=
  { sampleOutside "a" with signedIn := true, admin := some true }

/-- A sign-in to a cloud deployment, and a disconnect by an administrator. -/
def administeredDisconnect : List (Threads.Event Request Outside) :=
  [.spawn 0 (.session "id")] ++ List.replicate 8 (.step 0 sampleAdmin) ++ [.spawn 1 (.cloudDisable "a" "token")] ++
    List.replicate 8 (.step 1 sampleAdmin)

/-- A disconnect passes its gate before a connect, and writes the file after it. -/
def connectBetween : List (Threads.Event Request Outside) :=
  [.spawn 0 (.session "")] ++ List.replicate 3 (.step 0 (sampleOutside "a")) ++
    [.spawn 2 (.cloudDisable "a" "")] ++ stepsOf 2 2 ++
    [.spawn 1 (.cloudApply "a" "" sampleTeamRecipe "https://localhost:8443/callback")] ++ stepsOf 1 7 ++ stepsOf 2 5

/-- A change of a gated route in a cloud file that can be asked for. -/
def changesAskable (st : LogStep) : Bool :=
  st.request.isGated && changes st && (askable sampleChecks st.before.file).isSome

/-- Whether somebody asked for an administrator before a step. -/
def asksAdmin : Script.Event Answer → Bool
  | ⟨.resolveEntitlements _ _ _, _⟩ => true
  | _ => false

theorem administeredDisconnect_asked : ∃ (p : Pool) (st : LogStep) (base team : String),
    (system samplePlatform).Reachable (fun p e =>
      (machine samplePlatform).allows (fun _ => true) (fun _ => onTarget sampleChecks) p e = true) p ∧
    st ∈ p.log ∧ changesAskable st = true ∧ ⟨.resolveEntitlements base st.request.token team, some true⟩ ∈ st.past := by
  have hrun : ((system samplePlatform).run
      ((machine samplePlatform).allows (fun _ => true) fun _ => onTarget sampleChecks) sampleTeamPool
      administeredDisconnect).any (·.log.any changesAskable) = true := by decide +kernel
  obtain ⟨p, hreach, hchange⟩ := TransitionSystem.exists_reachable hrun started_sampleTeamPool fun _ _ hok => hok
  obtain ⟨st, hst, hchange⟩ := any_eq_true.1 hchange
  obtain ⟨hgated, hasked⟩ := and_eq_true_iff.1 hchange
  obtain ⟨hgated, hchanges⟩ := and_eq_true_iff.1 hgated
  obtain ⟨⟨base, team⟩, htarget⟩ := isSome_iff_exists.1 hasked
  exact ⟨p, st, base, team, hreach, hst, hchange, adminGate_complete hreach st hst hgated hchanges base team htarget⟩

theorem connectBetween_unadministered : ∃ p : Pool, (system samplePlatform).Reachable (fun _ _ => True) p ∧
    ¬ ∀ st ∈ p.log, Administered samplePlatform.checks st := by
  have hrun : ((system samplePlatform).run (fun _ _ => true) samplePool connectBetween).any
      (·.log.any fun st => changesAskable st && !st.past.any asksAdmin) = true := by decide +kernel
  obtain ⟨p, hp, hchange⟩ := TransitionSystem.exists_reachable hrun started_samplePool fun _ _ _ => trivial
  obtain ⟨st, hst, hchange⟩ := any_eq_true.1 hchange
  obtain ⟨hchange, hnobody⟩ := and_eq_true_iff.1 hchange
  obtain ⟨hgated, hasked⟩ := and_eq_true_iff.1 hchange
  obtain ⟨hgated, hchanges⟩ := and_eq_true_iff.1 hgated
  obtain ⟨⟨base, team⟩, htarget⟩ := isSome_iff_exists.1 hasked
  refine ⟨p, hp, fun hall => ?_⟩
  have hadmin := hall st hst hgated hchanges base team htarget
  have hany : st.past.any asksAdmin = true := any_eq_true.2 ⟨_, hadmin, rfl⟩
  rw [hany] at hnobody
  cases hnobody

end Console.Daemon
