import SymbolAtlas.Session
import SymbolAtlas.Proofs.Attempt
import Mathlib.Tactic

/-!
# Histories of sessions

Whatever a session has done, its host shows the last workspace that was put in place, unless it was
taken away since, and how many have been put in place so far.  This rests on what a single action
can do to a host: a load or a swap that reports success puts a workspace in place, clearing takes it
away, and everything else, a load that fails and every query included, leaves the host as it was.
The files at hand may change from one action to the next.
-/

namespace SymbolAtlas

namespace Action

def isClear : Action → Bool
  | .clear => true
  | _ => false

/-- The action reports that it has put a workspace in place. -/
def installs : Action → Attempt Outcome → Bool
  | .load _, .ok _ => true
  | .autoload _, .ok (.autoloaded isLoaded) => isLoaded
  | .swap _, .ok _ => true
  | .call .loadWorkspace _, .ok _ => true
  | _, _ => false

/-- The workspace that an action offers: the one it hands over or that of the file it names. -/
def offered? (disk : Disk) : Action → Option Snapshot
  | .load path => (Snapshot.ofFile disk path).toOption
  | .autoload path => (Snapshot.ofFile disk path).toOption
  | .swap snapshot => some snapshot
  | .call .loadWorkspace arguments =>
      match arguments.value "path" with
      | .text path => (Snapshot.ofFile disk (.text (Text.trim path))).toOption
      | _ => none
  | _ => none

end Action

namespace Session

/-- What was done with which files at hand, and what came of it. -/
structure Step where
  disk : Disk
  action : Action
  outcome : Attempt Outcome

def Step.installs (step : Step) : Bool :=
  step.action.installs step.outcome

def Step.offered? (step : Step) : Option Snapshot :=
  step.action.offered? step.disk

/-- Carries out an action with some files at hand. -/
def actOn (s : Session) (disk : Disk) (action : Action) : Attempt Outcome × Session :=
  { s with disk := disk }.act action

/-- The steps of a session that carries out actions, each with the files at hand by then, and the
session behind them. -/
def history (s : Session) : List (Disk × Action) → List Step × Session
  | [] => ([], s)
  | (disk, action) :: rest =>
      let (outcome, next) := s.actOn disk action
      let (steps, last) := history next rest
      (⟨disk, action, outcome⟩ :: steps, last)

/-- Nothing was put in place or taken away. -/
def Undisturbed (steps : List Step) : Prop :=
  ∀ step ∈ steps, step.installs = false ∧ step.action.isClear = false

/-- A workspace was put in place, and since then none was put in place or taken away. -/
def InstalledLast (steps : List Step) (snapshot : Snapshot) : Prop :=
  ∃ before step after, steps = before ++ step :: after ∧ step.installs = true ∧
    step.offered? = some snapshot ∧ Undisturbed after

/-- The arguments say what a query is about, and which way if it asks for a hierarchy. -/
structure AsksProperly (tool : Tool) (arguments : Arguments) : Prop where
  target : ∃ target, arguments.target = .ok target
  direction : tool = .inheritanceTree →
    ∃ direction, Direction.parse (arguments.value "direction") = .ok direction

variable {s : Session} {disk : Disk} {action : Action} {tool : Tool} {arguments : Arguments}
  {turns more : List (Disk × Action)} {snapshot : Snapshot}

/-! ## Single actions -/

/-- What an action can do to a host. -/
inductive Effect (host : Host) (disk : Disk) (action : Action) (outcome : Attempt Outcome) :
    Host → Prop where
  | installed {snapshot : Snapshot} (hinstalls : action.installs outcome = true)
      (hoffered : action.offered? disk = some snapshot) :
      Effect host disk action outcome (host.swap snapshot)
  | cleared (hinstalls : action.installs outcome = false) (hclear : action.isClear = true) :
      Effect host disk action outcome host.clear
  | kept (hinstalls : action.installs outcome = false) (hclear : action.isClear = false) :
      Effect host disk action outcome host

theorem callLoad_eq_ok {path : Value} {answer : Answer} {host : Host}
    (hload : s.callLoad path = .ok (answer, host)) :
    ∃ given loaded, path = .text given ∧
      Snapshot.ofFile s.disk (.text (Text.trim given)) = .ok loaded ∧
      host = s.host.swap loaded := by
  unfold callLoad at hload
  split at hload
  next => cases hload
  next =>
    split at hload
    next given _ =>
      dsimp only at hload
      split at hload
      next => cases hload
      next =>
        simp only [Attempt.bind_eq_ok, Host.load, Attempt.pure_eq_ok] at hload
        obtain ⟨⟨loaded, next⟩, hfile, hanswer⟩ := hload
        cases hread : Snapshot.ofFile s.disk (.text (Text.trim given)) with
        | error fault => simp [hread, Except.map] at hfile
        | ok found =>
            simp only [hread, Except.map, Except.ok.injEq, Prod.mk.injEq] at hfile
            obtain ⟨rfl, rfl⟩ := hfile
            simp only [Prod.mk.injEq] at hanswer
            exact ⟨given, found, rfl, hread, hanswer.2.symm⟩
    next => cases hload

theorem call_query_eq (s : Session) (arguments : Arguments) (htool : tool ≠ .loadWorkspace) :
    ∃ handler, s.call tool arguments = s.query handler arguments := by
  cases tool with
  | loadWorkspace => exact absurd rfl htool
  | describeSymbol => exact ⟨_, rfl⟩
  | findReferences => exact ⟨_, rfl⟩
  | methodDependencies => exact ⟨_, rfl⟩
  | inheritanceTree => exact ⟨_, rfl⟩
  | allImplementations => exact ⟨_, rfl⟩
  | gotoDefinition => exact ⟨_, rfl⟩
  | typeInfo => exact ⟨_, rfl⟩

theorem query_keeps {handler : Query.Handler} {answer : Answer} {host : Host}
    (hquery : s.query handler arguments = .ok (answer, host)) : host = s.host := by
  unfold query at hquery
  cases hanswer : handler s.config s.host.require arguments with
  | error fault => simp [hanswer, Except.map] at hquery
  | ok found =>
      simp only [hanswer, Except.map, Except.ok.injEq, Prod.mk.injEq] at hquery
      exact hquery.2.symm

theorem installs_error {fault : Fault} : action.installs (.error fault) = false := by
  cases action with
  | call tool arguments => cases tool <;> rfl
  | _ => rfl

theorem installs_call {outcome : Attempt Outcome} (htool : tool ≠ .loadWorkspace) :
    (Action.call tool arguments).installs outcome = false := by
  cases tool with
  | loadWorkspace => exact absurd rfl htool
  | _ => cases outcome <;> rfl

theorem act_of_error {fault : Fault} (hattempt : s.attempt action = .error fault) :
    s.act action = (.error fault, s) := by
  rw [act, hattempt]

theorem act_of_ok {outcome : Outcome} {host : Host}
    (hattempt : s.attempt action = .ok (outcome, host)) :
    s.act action = (.ok outcome, { s with host := host }) := by
  rw [act, hattempt]

/-- An action that comes to nothing leaves the host as it was. -/
theorem effect_of_error (fault : Fault) (hattempt : s.attempt action = .error fault) :
    Effect s.host s.disk action (s.act action).1 (s.act action).2.host := by
  have hclear : action.isClear = false := by
    cases action with
    | clear => cases hattempt
    | _ => rfl
  rw [act_of_error hattempt]
  exact .kept installs_error hclear

theorem effect_load (path : Value) :
    Effect s.host s.disk (.load path) (s.act (.load path)).1 (s.act (.load path)).2.host := by
  cases hfile : Snapshot.ofFile s.disk path with
  | error fault =>
      exact effect_of_error fault (by simp [attempt, Host.load, hfile, Except.map])
  | ok found =>
      have hattempt : s.attempt (.load path) = .ok (.done, s.host.swap found) := by
        simp [attempt, Host.load, hfile, Except.map]
      rw [act_of_ok hattempt]
      exact .installed rfl (by simp [Action.offered?, hfile, Except.toOption])

theorem effect_autoload (path : Value) :
    Effect s.host s.disk (.autoload path) (s.act (.autoload path)).1
      (s.act (.autoload path)).2.host := by
  by_cases hpresent : path.isPresent = true
  · cases hfile : Snapshot.ofFile s.disk path with
    | ok found =>
        have hattempt : s.attempt (.autoload path) =
            .ok (.autoloaded true, s.host.swap found) := by
          simp [attempt, Host.autoload, hpresent, Host.load, hfile, Except.map]
        rw [act_of_ok hattempt]
        exact .installed rfl (by simp [Action.offered?, hfile, Except.toOption])
    | error fault =>
        cases fault with
        | failure f =>
            have hattempt : s.attempt (.autoload path) = .ok (.autoloaded false, s.host) := by
              simp [attempt, Host.autoload, hpresent, Host.load, hfile, Except.map]
            rw [act_of_ok hattempt]
            exact .kept rfl rfl
        | misuse m =>
            exact effect_of_error (.misuse m)
              (by simp [attempt, Host.autoload, hpresent, Host.load, hfile, Except.map])
        | settings problems =>
            exact effect_of_error (.settings problems)
              (by simp [attempt, Host.autoload, hpresent, Host.load, hfile, Except.map])
  · have hattempt : s.attempt (.autoload path) = .ok (.autoloaded false, s.host) := by
      simp [attempt, Host.autoload, hpresent, Except.map]
    rw [act_of_ok hattempt]
    exact .kept rfl rfl

theorem effect_call (tool : Tool) (arguments : Arguments) :
    Effect s.host s.disk (.call tool arguments) (s.act (.call tool arguments)).1
      (s.act (.call tool arguments)).2.host := by
  cases hcall : s.call tool arguments with
  | error fault => exact effect_of_error fault (by simp [attempt, hcall, Except.map])
  | ok found =>
      obtain ⟨answer, host⟩ := found
      have hattempt : s.attempt (.call tool arguments) = .ok (.answered answer, host) := by
        simp [attempt, hcall, Except.map]
      rw [act_of_ok hattempt]
      by_cases htool : tool = .loadWorkspace
      · subst htool
        obtain ⟨given, loaded, hpath, hfile, rfl⟩ := callLoad_eq_ok hcall
        exact .installed rfl (by simp [Action.offered?, hpath, hfile, Except.toOption])
      · obtain ⟨handler, hquery⟩ := call_query_eq s arguments htool
        rw [hquery] at hcall
        obtain rfl := query_keeps hcall
        exact .kept (installs_call htool) rfl

theorem effect_act (s : Session) (action : Action) :
    Effect s.host s.disk action (s.act action).1 (s.act action).2.host := by
  cases action with
  | load path => exact effect_load path
  | autoload path => exact effect_autoload path
  | swap snapshot => exact .installed rfl rfl
  | clear => exact .cleared rfl rfl
  | call tool arguments => exact effect_call tool arguments

theorem effect_actOn (s : Session) (disk : Disk) (action : Action) :
    Effect s.host disk action (s.actOn disk action).1 (s.actOn disk action).2.host :=
  effect_act { s with disk := disk } action

/-! ## Histories -/

theorem history_cons (s : Session) (disk : Disk) (action : Action)
    (turns : List (Disk × Action)) :
    s.history ((disk, action) :: turns) =
      (⟨disk, action, (s.actOn disk action).1⟩ :: ((s.actOn disk action).2.history turns).1,
        ((s.actOn disk action).2.history turns).2) :=
  rfl

theorem run_cons (s : Session) (action : Action) (rest : List Action) :
    s.run (action :: rest) =
      ((s.act action).1 :: ((s.act action).2.run rest).1, ((s.act action).2.run rest).2) :=
  rfl

/-- With the same files throughout, a history is what a run comes to. -/
theorem run_eq_history (s : Session) (actions : List Action) :
    s.run actions =
      ((s.history (actions.map fun action => (s.disk, action))).1.map Step.outcome,
        (s.history (actions.map fun action => (s.disk, action))).2) := by
  induction actions generalizing s with
  | nil => rfl
  | cons action rest ih =>
      have hsame : s.actOn s.disk action = s.act action := rfl
      have hdisk : (s.act action).2.disk = s.disk := by
        unfold act
        split <;> rfl
      have hrest := ih (s.act action).2
      rw [hdisk] at hrest
      rw [run_cons, List.map_cons, history_cons, hsame, hrest, List.map_cons]

theorem history_append (s : Session) (turns more : List (Disk × Action)) :
    s.history (turns ++ more) =
      ((s.history turns).1 ++ ((s.history turns).2.history more).1,
        ((s.history turns).2.history more).2) := by
  induction turns generalizing s with
  | nil => rfl
  | cons turn rest ih =>
      obtain ⟨disk, action⟩ := turn
      rw [List.cons_append, history_cons, history_cons, ih]
      rfl

theorem generation_history (s : Session) (turns : List (Disk × Action)) :
    (s.history turns).2.host.generation =
      s.host.generation + (s.history turns).1.countP Step.installs := by
  induction turns generalizing s with
  | nil => rfl
  | cons turn rest ih =>
      obtain ⟨disk, action⟩ := turn
      have heffect := effect_actOn s disk action
      rw [history_cons, ih, List.countP_cons]
      generalize hnext : (s.actOn disk action).2.host = next at heffect ⊢
      cases heffect with
      | installed hinstalls hoffered =>
          simp only [Host.swap, Step.installs, hinstalls, if_true]
          omega
      | cleared hinstalls hclear => simp [Host.clear, Step.installs, hinstalls]
      | kept hinstalls hclear => simp [Step.installs, hinstalls]

theorem installedLast_nil : ¬ InstalledLast [] snapshot := by
  rintro ⟨before, step, after, hsteps, -⟩
  simp at hsteps

theorem installedLast_cons {step : Step} {steps : List Step} :
    InstalledLast (step :: steps) snapshot ↔
      InstalledLast steps snapshot ∨
        step.installs = true ∧ step.offered? = some snapshot ∧ Undisturbed steps := by
  constructor
  · rintro ⟨before, found, after, hsteps, hinstalls, hoffered, hlater⟩
    cases before with
    | nil =>
        obtain ⟨rfl, rfl⟩ := List.cons.inj hsteps
        exact Or.inr ⟨hinstalls, hoffered, hlater⟩
    | cons first before =>
        obtain ⟨rfl, rfl⟩ := List.cons.inj hsteps
        exact Or.inl ⟨before, found, after, rfl, hinstalls, hoffered, hlater⟩
  · rintro (⟨before, found, after, rfl, hinstalls, hoffered, hlater⟩ |
      ⟨hinstalls, hoffered, hlater⟩)
    · exact ⟨step :: before, found, after, rfl, hinstalls, hoffered, hlater⟩
    · exact ⟨[], step, steps, rfl, hinstalls, hoffered, hlater⟩

/-- A host shows what was put in place last, or what it showed before if nothing has happened. -/
theorem snapshot_history (s : Session) (turns : List (Disk × Action)) (snapshot : Snapshot) :
    (s.history turns).2.host.snapshot = some snapshot ↔
      InstalledLast (s.history turns).1 snapshot ∨
        s.host.snapshot = some snapshot ∧ Undisturbed (s.history turns).1 := by
  induction turns generalizing s with
  | nil => simp [history, installedLast_nil, Undisturbed]
  | cons turn rest ih =>
      obtain ⟨disk, action⟩ := turn
      have heffect := effect_actOn s disk action
      rw [history_cons, ih, installedLast_cons, or_assoc]
      refine or_congr_right ?_
      generalize hnext : (s.actOn disk action).2.host = next at heffect ⊢
      have hall : ∀ step steps, Undisturbed (step :: steps) ↔
          (step.installs = false ∧ step.action.isClear = false) ∧ Undisturbed steps := by
        intro step steps
        exact List.forall_mem_cons
      cases heffect with
      | installed hinstalls hoffered =>
          simp [hall, Host.swap, Step.installs, Step.offered?, hinstalls, hoffered]
      | cleared hinstalls hclear =>
          simp [hall, Host.clear, Step.installs, hinstalls, hclear]
      | kept hinstalls hclear => simp [hall, Step.installs, hinstalls, hclear]

/-! ## Without a workspace -/

theorem start_without_workspace (config : Config) (timeout : Value) :
    Request.start config (.error (.failure .noWorkspace)) timeout =
      .error (.failure .noWorkspace) :=
  rfl

theorem require_of_none (hnone : s.host.snapshot = none) :
    s.host.require = .error (.failure .noWorkspace) := by
  simp [Host.require, hnone]

theorem query_eq_error {handler : Query.Handler} {fault : Fault}
    (hhandler : handler s.config s.host.require arguments = .error fault) :
    s.query handler arguments = .error fault := by
  rw [query, hhandler]
  rfl

theorem exists_of_query_eq_ok {handler : Query.Handler} {result : Answer × Host}
    (hquery : s.query handler arguments = .ok result) :
    ∃ answer, handler s.config s.host.require arguments = .ok answer := by
  cases hanswer : handler s.config s.host.require arguments with
  | error fault =>
      rw [query_eq_error hanswer] at hquery
      cases hquery
  | ok answer => exact ⟨answer, rfl⟩

/-- A query that asks properly is told that there is no workspace. -/
theorem call_without_workspace (hnone : s.host.snapshot = none) (htool : tool ≠ .loadWorkspace)
    (hasks : AsksProperly tool arguments) :
    s.call tool arguments = .error (.failure .noWorkspace) := by
  obtain ⟨target, htarget⟩ := hasks.target
  have hrequire := require_of_none hnone
  cases tool with
  | loadWorkspace => exact absurd rfl htool
  | inheritanceTree =>
      obtain ⟨direction, hdirection⟩ := hasks.direction rfl
      refine query_eq_error ?_
      rw [hrequire, Query.inheritanceTree, htarget, hdirection]
      rfl
  | _ =>
      refine query_eq_error ?_
      simp only [Query.describeSymbol, Query.findReferences, Query.methodDependencies,
        Query.allImplementations, Query.gotoDefinition, Query.typeInfo, htarget, hrequire]
      rfl

/-- Every query takes hold of the workspace before it looks anything up. -/
theorem call_ne_ok (hnone : s.host.snapshot = none) (htool : tool ≠ .loadWorkspace)
    (result : Answer × Host) : s.call tool arguments ≠ .ok result := by
  intro hcall
  have hstart : ∀ timeout request,
      Request.start s.config s.host.require timeout ≠ .ok request := by
    intro timeout request hrequest
    rw [require_of_none hnone, start_without_workspace] at hrequest
    cases hrequest
  cases tool with
  | loadWorkspace => exact absurd rfl htool
  | inheritanceTree =>
      obtain ⟨answer, hanswer⟩ := exists_of_query_eq_ok hcall
      simp only [Query.inheritanceTree, Attempt.bind_eq_ok] at hanswer
      obtain ⟨_, -, _, -, request, hrequest, -⟩ := hanswer
      exact hstart _ request hrequest
  | _ =>
      obtain ⟨answer, hanswer⟩ := exists_of_query_eq_ok hcall
      simp only [Query.describeSymbol, Query.findReferences, Query.methodDependencies,
        Query.allImplementations, Query.gotoDefinition, Query.typeInfo,
        Attempt.bind_eq_ok] at hanswer
      obtain ⟨_, -, request, hrequest, -⟩ := hanswer
      exact hstart _ request hrequest

theorem outcome_call (s : Session) (disk : Disk) (tool : Tool) (arguments : Arguments) :
    (s.actOn disk (.call tool arguments)).1 =
      (({ s with disk := disk } : Session).call tool arguments).map fun result =>
        .answered result.1 := by
  cases hcall : ({ s with disk := disk } : Session).call tool arguments <;>
    simp [actOn, act, attempt, hcall, Except.map]

/-! ## Hosts and histories -/

/-- Behind every history of a session that begins with an empty host, the generation is the number
of successful loads and swaps, which never decreases, and the active workspace is that of the last
one, unless it was cleared since.  A step that neither succeeds in loading or swapping nor clears
leaves the host as it is, as every query does; and without a workspace no query is answered, those
that ask properly being told that there is none. -/
theorem history_host (config : Config) (disk : Disk) (turns : List (Disk × Action)) :
    let start : Session := ⟨disk, config, .empty⟩
    let steps := (start.history turns).1
    let last := (start.history turns).2
    last.host.generation = steps.countP Step.installs ∧
      (∀ more, last.host.generation ≤ (start.history (turns ++ more)).2.host.generation) ∧
      (∀ snapshot, last.host.snapshot = some snapshot ↔ InstalledLast steps snapshot) ∧
      (∀ disk action,
        action.installs (last.actOn disk action).1 = false → action.isClear = false →
          (last.actOn disk action).2.host = last.host) ∧
      (∀ disk tool arguments, tool ≠ .loadWorkspace →
        (last.actOn disk (.call tool arguments)).2.host = last.host) ∧
      (last.host.snapshot = none → ∀ disk tool arguments, tool ≠ .loadWorkspace →
        (∀ outcome, (last.actOn disk (.call tool arguments)).1 ≠ .ok outcome) ∧
          (AsksProperly tool arguments → ∃ failure,
            (last.actOn disk (.call tool arguments)).1 = .error (.failure failure) ∧
              failure.code = .backendUnavailable)) := by
  intro start steps last
  have hkept : ∀ disk action, action.installs (last.actOn disk action).1 = false →
      action.isClear = false → (last.actOn disk action).2.host = last.host := by
    intro disk action hinstalls hclear
    have heffect := effect_actOn last disk action
    generalize (last.actOn disk action).2.host = next at heffect ⊢
    cases heffect with
    | installed hinstalled => simp [hinstalls] at hinstalled
    | cleared _ hcleared => simp [hclear] at hcleared
    | kept => rfl
  refine ⟨?_, ?_, ?_, hkept, ?_, ?_⟩
  · calc
      last.host.generation = 0 + steps.countP Step.installs := generation_history start turns
      _ = steps.countP Step.installs := Nat.zero_add _
  · intro more
    calc
      last.host.generation ≤ last.host.generation + (last.history more).1.countP Step.installs :=
        Nat.le_add_right _ _
      _ = (last.history more).2.host.generation := (generation_history last more).symm
      _ = (start.history (turns ++ more)).2.host.generation := by rw [history_append]
  · intro snapshot
    rw [snapshot_history start turns snapshot]
    refine or_iff_left ?_
    rintro ⟨hstart, -⟩
    cases hstart
  · intro disk tool arguments htool
    exact hkept disk _ (installs_call htool) rfl
  · intro hnone disk tool arguments htool
    have hnone : ({ last with disk := disk } : Session).host.snapshot = none := hnone
    constructor
    · intro outcome houtcome
      rw [outcome_call] at houtcome
      cases hcall : ({ last with disk := disk } : Session).call tool arguments with
      | error fault => simp [hcall, Except.map] at houtcome
      | ok result => exact call_ne_ok hnone htool result hcall
    · intro hasks
      refine ⟨.noWorkspace, ?_, rfl⟩
      rw [outcome_call, call_without_workspace hnone htool hasks]
      rfl

end Session
end SymbolAtlas
