import Mathlib.Data.List.Induction
import Relational.Proofs.Engine.Returns

/-!
# Databases of sessions

What sessions did is a list of events (`Engine.history`): each statement with its answer, in the order
in which the statements were carried out, and each session that was closed. The databases that
sessions use follow from the events alone (`Engine.sessions_run`), and each of them is there
(`Engine.Reaches.usesExisting`). So a session uses a database exactly if it was told to and nothing
has ended that since (`Engine.currentDatabase?_run`).
-/

namespace Relational

/-- Something that sessions did. -/
inductive Event where
  | answered (session : SessionId) (statement : Statement) (answer : Answer)
  | closed (session : SessionId)

/-- A session uses a database no longer: it was closed, or it was told to use a database, or the
database was dropped, by whichever session. -/
def Event.Ends (session : SessionId) (database : String) : Event → Prop
  | .answered other (.use _) answer => session = other ∧ answer.isError = false
  | .answered _ (.dropDatabase dropped) answer => database = dropped ∧ answer.isError = false
  | .answered .. => False
  | .closed other => session = other

namespace Sessions

/-- What an event makes of the databases that sessions use. -/
def apply (sessions : Sessions) : Event → Sessions
  | .answered session (.use database) answer =>
    if answer.isError then sessions else sessions.use session database
  | .answered _ (.dropDatabase database) answer =>
    if answer.isError then sessions else sessions.forget database
  | .answered .. => sessions
  | .closed session => sessions.close session

variable {sessions : Sessions} {session : SessionId} {database : String}

theorem database?_use (other : SessionId) (used : String) :
    (sessions.use other used).database? session =
      if session = other then some used else sessions.database? session :=
  SortedMap.get?_insert ..

theorem database?_close (other : SessionId) : (sessions.close other).database? session =
    if session = other then none else sessions.database? session :=
  SortedMap.get?_erase ..

theorem database?_forget (dropped : String) : (sessions.forget dropped).database? session =
    (sessions.database? session).filter (· != dropped) :=
  SortedMap.get?_filter ..

/-- A session uses a database behind an event if the event told it to, or if it did before and the
event has not ended that. -/
theorem database?_apply_iff {event : Event} :
    (sessions.apply event).database? session = some database ↔
      (∃ answer, event = .answered session (.use database) answer ∧ answer.isError = false) ∨
        ¬event.Ends session database ∧ sessions.database? session = some database := by
  cases event with
  | closed other =>
    rw [apply, database?_close, Event.Ends]
    by_cases hsession : session = other <;> simp [hsession]
  | answered other statement answer =>
    cases statement with
    | use used =>
      cases herror : answer.isError with
      | true => simp [apply, Event.Ends, herror]
      | false =>
        rw [apply, herror, if_neg (by simp), database?_use, Event.Ends]
        by_cases hsession : session = other
        · rw [if_pos hsession, hsession]
          constructor
          · intro hused
            exact .inl ⟨answer, by rw [Option.some.inj hused], herror⟩
          · rintro (⟨_, heq, -⟩ | ⟨hends, -⟩)
            · cases heq
              rfl
            · exact absurd ⟨rfl, herror⟩ hends
        · simp [hsession, Ne.symm hsession]
    | dropDatabase dropped =>
      cases herror : answer.isError with
      | true => simp [apply, Event.Ends, herror]
      | false =>
        rw [apply, herror, if_neg (by simp), database?_forget, Event.Ends]
        simp [Option.filter_eq_some_iff, herror, and_comm]
    | _ => simp [apply, Event.Ends]

end Sessions

/-! ## Events of calls -/

namespace Engine

/-- What an engine is asked. -/
inductive Call where
  | openSession
  | closeSession (session : SessionId)
  | execute (session : SessionId) (script : List Char)

/-- The engine behind a call. -/
def after (engine : Engine) : Call → Engine
  | .openSession => engine.openSession.2
  | .closeSession session => engine.closeSession session
  | .execute session script => (engine.execute session script).2

/-- The engine behind calls, one after the other. -/
def run (engine : Engine) (calls : List Call) : Engine :=
  calls.foldl after engine

/-- The events of a call: the statements of a script with their answers, if it was carried out. -/
def events (engine : Engine) : Call → List Event
  | .openSession => []
  | .closeSession session => [.closed session]
  | .execute session script =>
    match (engine.execute session script).1 with
    | .ok answers => (statements script).zipWith (.answered session) answers
    | .error _ => []

/-- The events of calls, one after the other. -/
def history (engine : Engine) : List Call → List Event
  | [] => []
  | call :: calls => engine.events call ++ (engine.after call).history calls

end Engine

/-! ## Statements and sessions -/

/-- The work leaves the databases of sessions as they are. -/
def Work.SparesSessions {α : Type} (work : Work α) : Prop :=
  ∀ engine, (work engine).2.sessions = engine.sessions

theorem Work.composes_sparesSessions : Composes SparesSessions where
  pure _ _ := rfl
  fail _ _ := rfl
  ask question engine := by rw [ask_run]
  operation _ _ := rfl
  bind {α β work f} h hf := by
    intro engine
    have hwork := h engine
    rw [bind_run]
    split
    · rename_i a between he
      rw [he] at hwork
      rw [hf a between, hwork]
    · rename_i he
      rw [he] at hwork
      exact hwork

namespace Statement

theorem perform_use (session : SessionId) (name : String) (engine : Engine) :
    (use name).perform session engine =
      match engine.storage.store.database name with
      | .ok _ => (.ok (.ofMessage ("Using database " ++ name)),
          { engine with sessions := engine.sessions.use session name })
      | .error e => (.error (.error e), engine) := by
  rw [perform, Work.bind_run, Work.ask_run]
  cases engine.storage.store.database name <;> rfl

theorem perform_dropDatabase (session : SessionId) (name : String) (engine : Engine) :
    (dropDatabase name).perform session engine =
      match engine.storage.dropDatabase name with
      | (.ok _, storage) => (.ok (.ofMessage ("Database " ++ name ++ " dropped")),
          { engine with storage, sessions := engine.sessions.forget name })
      | (.error failure, storage) => (.error failure, { engine with storage }) := by
  rw [perform, Work.bind_run, Work.storage]
  rcases engine.storage.dropDatabase name with ⟨failure | _, storage⟩ <;> rfl

end Statement

/-! ## What events say -/

namespace Engine

variable {engine engine' : Engine} {session : SessionId} {answer : Answer}

theorem sessions_perform_of_spares {statement : Statement} (hspares : statement.setsSessions = false)
    {outcome : Except Failure Answer}
    (h : statement.perform session engine = (outcome, engine')) : engine'.sessions = engine.sessions := by
  have hsessions : (statement.perform session).SparesSessions :=
    Statement.perform_of_composes Work.composes_sparesSessions session (by rw [hspares]; nofun)
  have hengine := hsessions engine
  rw [h] at hengine
  exact hengine

/-- A statement that fails leaves the databases of sessions as they are. -/
theorem sessions_perform_error {statement : Statement} {failure : Failure}
    (h : statement.perform session engine = (.error failure, engine')) :
    engine'.sessions = engine.sessions := by
  cases hsets : statement.setsSessions with
  | false => exact sessions_perform_of_spares hsets h
  | true =>
    cases statement with
    | use name =>
      rw [Statement.perform_use] at h
      split at h
      · nomatch h
      · cases h
        rfl
    | dropDatabase name =>
      rw [Statement.perform_dropDatabase] at h
      split at h
      · nomatch h
      · cases h
        rfl
    | _ => nomatch hsets

theorem sessions_perform_ok {statement : Statement} (hanswer : answer.isError = false)
    (h : statement.perform session engine = (.ok answer, engine')) :
    engine'.sessions = engine.sessions.apply (.answered session statement answer) := by
  cases statement with
  | use name =>
    rw [Sessions.apply, hanswer, if_neg (by simp)]
    rw [Statement.perform_use] at h
    split at h
    · cases h
      rfl
    · nomatch h
  | dropDatabase name =>
    rw [Sessions.apply, hanswer, if_neg (by simp)]
    rw [Statement.perform_dropDatabase] at h
    split at h
    · cases h
      rfl
    · nomatch h
  | _ => exact sessions_perform_of_spares rfl h

theorem apply_of_isError {statement : Statement} (hanswer : answer.isError = true) :
    engine.sessions.apply (.answered session statement answer) = engine.sessions := by
  cases statement with
  | use name => rw [Sessions.apply, hanswer, if_pos rfl]
  | dropDatabase name => rw [Sessions.apply, hanswer, if_pos rfl]
  | _ => rfl

/-- A statement and its answer say what became of the databases of sessions. -/
theorem sessions_answer {statement : Statement}
    (h : engine.answer session statement = (.ok answer, engine')) :
    engine'.sessions = engine.sessions.apply (.answered session statement answer) := by
  obtain hperform | ⟨e, hperform, rfl⟩ := answer_eq_ok h
  · exact sessions_perform_ok (statement.yields_perform session engine answer engine' hperform)
      hperform
  · rw [apply_of_isError rfl, sessions_perform_error hperform]

/-- Statements are answered one by one. -/
theorem answerAll_cons_eq_ok_iff {statement : Statement} {statements : List Statement}
    {answers : List Answer} :
    engine.answerAll session (statement :: statements) = (.ok answers, engine') ↔
      ∃ answer between rest, engine.answer session statement = (.ok answer, between) ∧
        between.answerAll session statements = (.ok rest, engine') ∧ answers = answer :: rest := by
  rw [answerAll]
  rcases engine.answer session statement with ⟨failure | answer, between⟩
  · constructor
    · rintro ⟨⟩
    · rintro ⟨_, _, _, ⟨⟩, -⟩
  · dsimp only
    cases hrest : between.answerAll session statements with
    | mk result last =>
      cases result with
      | error failure =>
        refine ⟨by rintro ⟨⟩, ?_⟩
        rintro ⟨_, _, _, h, h', -⟩
        cases h
        rw [hrest] at h'
        cases h'
      | ok rest =>
        constructor
        · intro h
          cases h
          exact ⟨answer, between, rest, rfl, hrest, rfl⟩
        · rintro ⟨_, _, _, h, h', rfl⟩
          cases h
          rw [hrest] at h'
          cases h'
          rfl

theorem sessions_answerAll {statements : List Statement} {answers : List Answer}
    (h : engine.answerAll session statements = (.ok answers, engine')) :
    engine'.sessions =
      (statements.zipWith (Event.answered session) answers).foldl Sessions.apply engine.sessions := by
  induction statements generalizing engine answers with
  | nil =>
    cases h
    rfl
  | cons statement statements ih =>
    obtain ⟨answer, between, rest, hanswer, hrest, rfl⟩ := answerAll_cons_eq_ok_iff.mp h
    rw [List.zipWith_cons_cons, List.foldl_cons, ← sessions_answer hanswer, ih hrest]

/-- In memory, a script is carried out to its end, or it cannot be read and nothing is done. -/
theorem Reaches.execute_cases (h : (new .inMemory).Reaches engine) (session : SessionId)
    (script : List Char) :
    (∃ answers, (engine.execute session script).1 = .ok answers ∧
      engine.answerAll session (statements script) =
        (.ok answers, (engine.execute session script).2)) ∨
      ∃ e, engine.execute session script = (.error (.error e), engine) := by
  have hreturns := h.execute_ne_missingCell session script
  unfold Engine.execute statements
  unfold Engine.execute at hreturns
  cases hbatches : Script.batches script with
  | error e => exact .inr ⟨e, rfl⟩
  | ok batches =>
    simp only [hbatches] at hreturns ⊢
    cases hanswers : engine.answerAll session batches.flatten with
    | mk result last =>
      rw [hanswers] at hreturns
      cases result with
      | ok answers => exact .inl ⟨answers, rfl, rfl⟩
      | error failure =>
        obtain ⟨name, rfl, -⟩ := lacks_of_answerAll hanswers
        exact absurd rfl (hreturns name)

/-- The events of a call say what became of the databases of sessions. -/
theorem sessions_after (h : (new .inMemory).Reaches engine) (call : Call) :
    (engine.after call).sessions = (engine.events call).foldl Sessions.apply engine.sessions := by
  cases call with
  | openSession => rfl
  | closeSession session => rfl
  | execute session script =>
    rw [after, events]
    obtain ⟨answers, hrun, hanswers⟩ | ⟨e, hrun⟩ := h.execute_cases session script
    · rw [sessions_answerAll hanswers, hrun]
    · rw [hrun]
      rfl

theorem Reaches.after {start : Engine} (h : start.Reaches engine) (call : Call) :
    start.Reaches (engine.after call) := by
  cases call with
  | openSession => exact .openSession h
  | closeSession session => exact .closeSession session h
  | execute session script => exact .execute session script h

theorem Reaches.run {start : Engine} (h : start.Reaches engine) (calls : List Call) :
    start.Reaches (engine.run calls) := by
  induction calls generalizing engine with
  | nil => exact h
  | cons call calls ih => exact ih (h.after call)

/-- The databases that sessions use follow from what sessions did. -/
theorem sessions_run (h : (new .inMemory).Reaches engine) (calls : List Call) :
    (engine.run calls).sessions = (engine.history calls).foldl Sessions.apply engine.sessions := by
  induction calls generalizing engine with
  | nil => rfl
  | cons call calls ih =>
    rw [run, List.foldl_cons, ← run, ih (h.after call), sessions_after h, history,
      List.foldl_append]

end Engine

/-- A session uses a database behind events if one of them told it to and none has ended that
since. -/
theorem Sessions.database?_foldl_iff {events : List Event} {session : SessionId}
    {database : String} :
    (events.foldl apply empty).database? session = some database ↔
      ∃ before answer since, events = before ++ .answered session (.use database) answer :: since ∧
        answer.isError = false ∧ ∀ event ∈ since, ¬event.Ends session database := by
  induction events using List.reverseRecOn with
  | nil => simp [database?, empty, SortedMap.get?_empty]
  | append_singleton events event ih =>
    rw [List.foldl_append, List.foldl_cons, List.foldl_nil, database?_apply_iff, ih]
    constructor
    · rintro (⟨answer, rfl, hanswer⟩ | ⟨hends, before, answer, since, rfl, hanswer, hsince⟩)
      · exact ⟨events, answer, [], rfl, hanswer, by simp⟩
      · refine ⟨before, answer, since ++ [event], by simp, hanswer, ?_⟩
        exact List.forall_mem_append.mpr ⟨hsince, List.forall_mem_singleton.mpr hends⟩
    · rintro ⟨before, answer, since, hevents, hanswer, hsince⟩
      rcases List.eq_nil_or_concat since with rfl | ⟨since, last, rfl⟩
      · obtain ⟨rfl, hlast⟩ := List.append_inj' hevents rfl
        exact .inl ⟨answer, List.singleton_inj.mp hlast, hanswer⟩
      · rw [List.concat_eq_append] at hevents hsince
        rw [← List.cons_append, ← List.append_assoc] at hevents
        obtain ⟨rfl, hlast⟩ := List.append_inj' hevents rfl
        obtain rfl := List.singleton_inj.mp hlast
        obtain ⟨hsince, hends⟩ := List.forall_mem_append.mp hsince
        exact .inr ⟨hends event List.mem_cons_self, before, answer, since, rfl, hanswer, hsince⟩

/-! ## Databases in use -/

/-- A database stays until it is dropped. -/
theorem Store.contains_result {store store' : Store} {op : Operation} {database : String}
    (hresult : store.result op = .ok store') (hop : op ≠ .dropDatabase database)
    (h : store.databases.contains database = true) : store'.databases.contains database = true := by
  cases step_of_result hresult with
  | createDatabase => rw [SortedMap.contains_insert, h, Bool.or_true]
  | @dropDatabase name =>
    have hne : database ≠ name := fun he => hop (by rw [he])
    rw [SortedMap.contains_erase, h]
    simpa using hne
  | createTable => exact contains_put.mpr (.inr h)
  | dropTable => rw [SortedMap.contains_insert, h, Bool.or_true]
  | change => exact contains_put.mpr (.inr h)

theorem Store.contains_run {store : Store} {ops : List Operation} {database : String}
    (h : store.databases.contains database = true) (hops : ∀ op ∈ ops, op ≠ .dropDatabase database) :
    (store.run ops).databases.contains database = true := by
  induction ops generalizing store with
  | nil => exact h
  | cons op ops ih =>
    obtain ⟨hop, hops⟩ := List.forall_mem_cons.mp hops
    refine ih ?_ hops
    unfold after
    split
    · rename_i hresult
      exact contains_result hresult hop h
    · exact h

namespace Engine

variable {engine engine' : Engine} {session : SessionId} {answer : Answer} {database : String}

/-- Every database that a session uses is there. -/
def UsesExisting (engine : Engine) : Prop :=
  ∀ session database, engine.currentDatabase? session = some database →
    engine.storage.store.databases.contains database = true

/-- A statement leaves a database there, unless it drops it. -/
theorem contains_answer {statement : Statement} {other : SessionId}
    (hmemory : engine.storage.directory = none)
    (h : engine.answer session statement = (.ok answer, engine'))
    (hends : ¬(Event.answered session statement answer).Ends other database)
    (hcontains : engine.storage.store.databases.contains database = true) :
    engine'.storage.store.databases.contains database = true := by
  by_cases hdrop : statement = .dropDatabase database
  · subst hdrop
    obtain hperform | ⟨e, hperform, -⟩ := answer_eq_ok h
    · have hanswer := Statement.yields_perform session _ engine answer engine' hperform
      exact absurd ⟨rfl, hanswer⟩ hends
    · rw [Statement.keeps_perform session rfl engine _ _ hmemory hperform]
      exact hcontains
  · obtain ⟨ops, hops, hstorage, -⟩ := engine.storage_answer session statement
    rw [h] at hstorage
    rw [hstorage, Storage.store_run]
    refine Store.contains_run hcontains fun op hop he => hdrop ?_
    cases hops op hop with
    | dropDatabase name => cases he; rfl
    | _ => nomatch he

theorem UsesExisting.of_answer {statement : Statement} (huses : engine.UsesExisting)
    (hmemory : engine.storage.directory = none)
    (h : engine.answer session statement = (.ok answer, engine')) : engine'.UsesExisting := by
  intro other database hused
  rw [currentDatabase?, sessions_answer h, Sessions.database?_apply_iff] at hused
  obtain ⟨answer', hevent, hanswer⟩ | ⟨hends, hused⟩ := hused
  · cases hevent
    obtain hperform | ⟨e, -, rfl⟩ := answer_eq_ok h
    · rw [Statement.perform_use] at hperform
      split at hperform
      · rename_i tables htables
        cases hperform
        exact SortedMap.contains_of_get? (Store.database_eq_ok_iff.mp htables)
      · nomatch hperform
    · nomatch hanswer
  · exact contains_answer hmemory h hends (huses other database hused)

theorem directory_answer (hmemory : engine.storage.directory = none) (session : SessionId)
    (statement : Statement) : (engine.answer session statement).2.storage.directory = none := by
  obtain ⟨ops, -, hstorage, -⟩ := engine.storage_answer session statement
  rw [hstorage, Storage.directory_run hmemory]

theorem UsesExisting.of_answerAll {statements : List Statement} {answers : List Answer}
    (huses : engine.UsesExisting) (hmemory : engine.storage.directory = none)
    (h : engine.answerAll session statements = (.ok answers, engine')) : engine'.UsesExisting := by
  induction statements generalizing engine answers with
  | nil =>
    cases h
    exact huses
  | cons statement statements ih =>
    obtain ⟨answer, between, rest, hanswer, hrest, rfl⟩ := answerAll_cons_eq_ok_iff.mp h
    have hbetween := directory_answer hmemory session statement
    rw [hanswer] at hbetween
    exact ih (huses.of_answer hmemory hanswer) hbetween hrest

/-- In memory, every database that a session uses is there. -/
theorem Reaches.usesExisting (h : (new .inMemory).Reaches engine) : engine.UsesExisting := by
  induction h with
  | refl =>
    intro session database hused
    nomatch hused
  | @execute engine session script hengine ih =>
    obtain ⟨answers, -, hanswers⟩ | ⟨e, hrun⟩ := hengine.execute_cases session script
    · exact ih.of_answerAll (hengine.directory rfl) hanswers
    · rw [hrun]
      exact ih
  | openSession _ ih => exact ih
  | @closeSession engine closed hengine ih =>
    intro session database hused
    rw [currentDatabase?, Engine.closeSession, Sessions.database?_close] at hused
    split at hused
    · nomatch hused
    · exact ih session database hused
  | setMode _ _ ih => exact ih

/-- Whatever calls an engine in memory had, in whatever order: a session uses a database exactly if
it was told to, and since then it was not told to use one again, it was not closed and no session
dropped the database; and a database that a session uses is there. -/
theorem currentDatabase?_run (calls : List Call) (session : SessionId) (database : String) :
    (((new .inMemory).run calls).currentDatabase? session = some database ↔
      ∃ before answer since, (new .inMemory).history calls =
          before ++ .answered session (.use database) answer :: since ∧
        answer.isError = false ∧ ∀ event ∈ since, ¬event.Ends session database) ∧
    (((new .inMemory).run calls).currentDatabase? session = some database →
      database ∈ ((new .inMemory).run calls).storage.store.databaseNames) := by
  have hreaches : (new .inMemory).Reaches ((new .inMemory).run calls) := Reaches.refl.run calls
  constructor
  · rw [currentDatabase?, sessions_run .refl]
    exact Sessions.database?_foldl_iff
  · intro hused
    exact SortedMap.mem_keys_iff.mpr (hreaches.usesExisting session database hused)

end Engine

end Relational
