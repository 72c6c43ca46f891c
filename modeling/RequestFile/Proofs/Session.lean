import Mathlib
import RequestFile.Session
import RequestFile.Proofs.ResponseReference

/-!
# Runs of a session

A session changes with every response that is captured, but a request that is prepared for sending
sees only the variables and the responses to the requests that it names. Here it is shown what one
action leaves of a session and, from that, what a run of actions leaves: of the response to a
request the last action about it decides, and a run that stays away from the variables and from the
dependencies of a request makes no difference to what is sent.
-/

namespace RequestFile

/-! ## Dependencies -/

/-- A request depends on the responses to the requests to which its URL, the values of its headers
or its body refer. -/
theorem Request.mem_dependencies {r : Request} {name : String} :
    name ∈ r.dependencies ↔ ∃ text ∈ r.texts, name ∈ referencedRequests text := by
  rw [dependencies, mem_sortedNames, List.mem_flatMap]

/-- Dependencies ascend, and none of them comes twice. -/
theorem Request.pairwise_dependencies (r : Request) : r.dependencies.Pairwise (· < ·) :=
  pairwise_sortedNames _

namespace Session

variable {s t : Session} {clock : Clock} {γ : Type} [RandomGen γ]

/-- Sessions with the same variables resolve a text alike, if they agree on the responses to which
it refers. -/
theorem resolve_congr (scope : s.scope = t.scope) {text : String}
    (agree : s.responses.AgreeOn t.responses (referencedRequests text)) (source : γ) :
    s.resolve clock text source = t.resolve clock text source := by
  rw [resolve, resolve, scope, agree.resolve_eq]

theorem resolveHeaders_congr (scope : s.scope = t.scope) {headers : List (String × String)}
    (agree : ∀ value ∈ headers.map Prod.snd,
      s.responses.AgreeOn t.responses (referencedRequests value)) (source : γ) :
    s.resolveHeaders clock headers source = t.resolveHeaders clock headers source := by
  induction headers generalizing source with
  | nil => rfl
  | cons entry rest ih =>
    obtain ⟨name, value⟩ := entry
    rw [List.map_cons, List.forall_mem_cons] at agree
    simp only [resolveHeaders, resolve_congr scope agree.1, ih agree.2]

/-- What is sent for a request depends on the variables and on the responses to the requests that it
names, and on nothing else in a session. -/
theorem prepare_congr (scope : s.scope = t.scope) {r : Request}
    (agree : s.responses.AgreeOn t.responses r.dependencies) (source : γ) :
    s.prepare clock r source = t.prepare clock r source := by
  have texts : ∀ text ∈ r.texts, s.responses.AgreeOn t.responses (referencedRequests text) := by
    intro text mem name named
    exact agree name (Request.mem_dependencies.2 ⟨text, mem, named⟩)
  rw [Request.texts, List.cons_append, List.forall_mem_cons] at texts
  obtain ⟨url, others⟩ := texts
  have headers : ∀ source : γ, s.resolveHeaders clock r.headers.entries source =
      t.resolveHeaders clock r.headers.entries source := by
    apply resolveHeaders_congr scope
    intro value mem
    exact others value (List.mem_append_left _ mem)
  have body : ∀ text, r.body = some text → ∀ source : γ,
      s.resolve clock text source = t.resolve clock text source := by
    intro text given
    apply resolve_congr scope
    exact others text (List.mem_append_right _ (by rw [given]; exact List.mem_singleton_self text))
  simp only [prepare, resolve_congr scope url, headers]
  cases given : r.body with
  | none => rfl
  | some text => simp only [body text given]

/-! ## One action -/

/-- Settings change nothing but the options, and only to options with which nothing is wrong. -/
theorem exists_step_configure (s : Session) (settings : Json.Value) :
    ∃ options, s.step (.configure settings) = { s with options } ∧
      (options = s.options ∨ options.problem? = none) := by
  cases read : Options.ofSection settings with
  | error e =>
    refine ⟨s.options, ?_, .inl rfl⟩
    simp [step, step?, configure, read, Except.map, Except.toOption]
  | ok options =>
    refine ⟨options, by simp [step, step?, configure, read, Except.map, Except.toOption], .inr ?_⟩
    rw [Options.ofSection] at read
    split at read
    · cases read
    · split at read
      · cases read
      · next o sound =>
        cases read
        exact sound

/-- A text that is parsed changes the document and the file variables together, or neither. -/
theorem exists_step_parse (s : Session) (text : String) :
    s.step (.parse text) = s ∨ ∃ document, s.step (.parse text) =
      { s with document, scope := { s.scope with file := document.fileVariables } } := by
  cases read : RequestFile.parse text s.options with
  | error e => exact .inl (by simp [step, step?, parse, read, Except.map, Except.toOption])
  | ok document =>
    exact .inr ⟨document, by simp [step, step?, parse, read, Except.map, Except.toOption]⟩

/-- A document that is loaded changes nothing but the document. -/
theorem exists_step_load (s : Session) (json : String) :
    ∃ document, s.step (.load json) = { s with document } := by
  cases read : Document.ofJson? json with
  | none => exact ⟨s.document, by simp [step, step?, load?, read]⟩
  | some document => exact ⟨document, by simp [step, step?, load?, read]⟩

/-! ## Runs of actions -/

theorem run_cons (s : Session) (action : Action) (rest : List Action) :
    s.run (action :: rest) = (s.step action).run rest :=
  rfl

/-- What every action of a run preserves holds after the run. -/
theorem run_invariant {P : Session → Prop} {actions : List Action}
    (kept : ∀ action ∈ actions, ∀ s, P s → P (s.step action)) (start : P s) :
    P (s.run actions) := by
  induction actions generalizing s with
  | nil => exact start
  | cons action rest ih =>
    rw [List.forall_mem_cons] at kept
    exact ih kept.2 (kept.1 s start)

/-! ## Responses -/

/-- What an action makes of the response to a request, if it is about this response: another
response, or none. -/
def Action.response? (name : String) : Action → Option (Option Snapshot)
  | capture other response => if other = name then some (some response) else none
  | uncapture other => if other = name then some none else none
  | clear => some none
  | _ => none

/-- An action about a response decides what there is of it, any other leaves it as it is. -/
theorem get?_responses_step (s : Session) (action : Action) (name : String) :
    (s.step action).responses.get? name =
      (action.response? name).getD (s.responses.get? name) := by
  cases action with
  | configure settings =>
    obtain ⟨options, after, -⟩ := s.exists_step_configure settings
    rw [after]
    rfl
  | parse text =>
    rcases s.exists_step_parse text with after | ⟨document, after⟩
    · rw [after]
      rfl
    · rw [after]
      rfl
  | load json =>
    obtain ⟨document, after⟩ := s.exists_step_load json
    rw [after]
    rfl
  | capture other response =>
    show (s.responses.insert other response).get? name = _
    by_cases same : other = name
    · subst same
      simp [Action.response?]
    · simp [Action.response?, same, Table.get?_insert_of_ne (Ne.symm same)]
  | uncapture other =>
    show (s.responses.erase other).get? name = _
    by_cases same : other = name
    · subst same
      simp [Action.response?]
    · simp [Action.response?, same, Table.get?_erase_of_ne (Ne.symm same)]
  | _ => rfl

/-- What is done to the response to a request in a run, one after the other. -/
def responsesOf (name : String) (actions : List Action) : List (Option Snapshot) :=
  actions.filterMap (·.response? name)

/-- After a run, the last action about the response to a request decides what there is of it. -/
theorem get?_responses_run (s : Session) (actions : List Action) (name : String) :
    (s.run actions).responses.get? name =
      (responsesOf name actions).getLast?.getD (s.responses.get? name) := by
  induction actions generalizing s with
  | nil => rfl
  | cons action rest ih =>
    rw [run_cons, ih, get?_responses_step, responsesOf, responsesOf, List.filterMap_cons]
    cases action.response? name with
    | none => rfl
    | some response =>
      rw [List.getLast?_cons]
      cases (rest.filterMap (·.response? name)).getLast? with
      | none => rfl
      | some later => rfl

example (response : Snapshot) :
    (({} : Session).run [.capture "a" {}, .capture "a" response, .uncapture "b"]).responses.get?
      "a" = some response := by
  rfl

/-! ## Variables -/

/-- Whether an action leaves the variables to which placeholders refer as they are. -/
def Action.keepsScope : Action → Bool
  | parse _ | reloadVariables | setFileVariable _ _ | withEnvironment _ => false
  | _ => true

theorem scope_step {action : Action} (keeps : action.keepsScope = true) :
    (s.step action).scope = s.scope := by
  cases action with
  | configure settings =>
    obtain ⟨options, after, -⟩ := s.exists_step_configure settings
    rw [after]
  | load json =>
    obtain ⟨document, after⟩ := s.exists_step_load json
    rw [after]
  | withVariable | capture | uncapture | clear => rfl
  | parse | reloadVariables | setFileVariable | withEnvironment => cases keeps

theorem scope_run {actions : List Action} (keeps : ∀ action ∈ actions, action.keepsScope = true) :
    (s.run actions).scope = s.scope := by
  apply @run_invariant s fun t => t.scope = s.scope
  · intro action mem t same
    rw [scope_step (keeps action mem), same]
  · rfl

/-! ## Runs and requests -/

/-- Two runs that lead to the same variables, and that do the same last to the responses on which a
request depends, lead to the same request. -/
theorem prepare_run_congr {actions others : List Action} {r : Request}
    (scope : (s.run actions).scope = (s.run others).scope)
    (last : ∀ name ∈ r.dependencies,
      (responsesOf name actions).getLast? = (responsesOf name others).getLast?) (source : γ) :
    (s.run actions).prepare clock r source = (s.run others).prepare clock r source := by
  apply prepare_congr scope
  intro name depends
  rw [get?_responses_run, get?_responses_run, last name depends]

/-- A run that keeps the variables and is not about the responses on which a request depends makes
no difference to the request, whatever it does to the options, the document and other responses. -/
theorem prepare_run {actions : List Action} {r : Request}
    (keeps : ∀ action ∈ actions, action.keepsScope = true)
    (spares : ∀ name ∈ r.dependencies, responsesOf name actions = []) (source : γ) :
    (s.run actions).prepare clock r source = s.prepare clock r source := by
  have scope : (s.run actions).scope = (s.run []).scope := scope_run keeps
  apply prepare_run_congr scope
  intro name depends
  rw [spares name depends]
  rfl

/-! ## Options and file variables -/

theorem problem?_step (sound : s.options.problem? = none) (action : Action) :
    (s.step action).options.problem? = none := by
  cases action with
  | configure settings =>
    obtain ⟨options, after, same | sound'⟩ := s.exists_step_configure settings
    · rw [after, same]
      exact sound
    · rw [after]
      exact sound'
  | parse text =>
    rcases s.exists_step_parse text with after | ⟨document, after⟩
    · rw [after]
      exact sound
    · rw [after]
      exact sound
  | load json =>
    obtain ⟨document, after⟩ := s.exists_step_load json
    rw [after]
    exact sound
  | _ => exact sound

/-- Whatever is done, nothing comes to be wrong with the options. -/
theorem problem?_run (sound : s.options.problem? = none) (actions : List Action) :
    (s.run actions).options.problem? = none := by
  apply @run_invariant s fun t => t.options.problem? = none
  · intro action _ t sound
    exact problem?_step sound action
  · exact sound

/-- Whether an action may change the document or the file variables without the other. -/
def Action.tearsApart : Action → Bool
  | load _ | withVariable _ _ | setFileVariable _ _ => true
  | _ => false

theorem file_step {action : Action} (joint : action.tearsApart = false)
    (same : s.scope.file = s.document.fileVariables) :
    (s.step action).scope.file = (s.step action).document.fileVariables := by
  cases action with
  | configure settings =>
    obtain ⟨options, after, -⟩ := s.exists_step_configure settings
    rw [after]
    exact same
  | parse text =>
    rcases s.exists_step_parse text with after | ⟨document, after⟩
    · rw [after]
      exact same
    · rw [after]
  | load | withVariable | setFileVariable => cases joint
  | reloadVariables => rfl
  | withEnvironment | capture | uncapture | clear => exact same

/-- As long as neither the document nor a file variable is changed alone, the file variables are
those of the document. -/
theorem file_run {actions : List Action} (joint : ∀ action ∈ actions, action.tearsApart = false)
    (same : s.scope.file = s.document.fileVariables) :
    (s.run actions).scope.file = (s.run actions).document.fileVariables := by
  apply @run_invariant s fun t => t.scope.file = t.document.fileVariables
  · intro action mem t same
    exact file_step (joint action mem) same
  · exact same

end Session

end RequestFile
