import Relational.Engine
import Relational.Proofs.Storage.Operation

/-!
# Runs of engines

Whatever an engine is asked, its storage changes by operations only: work does operations of a kind
(`Work.Does`), each statement those that it asks for (`Statement.Asks`). So the storage of an engine
that was reached by scripts (`Engine.Reaches`) is the storage at the start behind a run of
operations (`Reaches.storage`), and what such a run keeps is kept. Work that does not end with an I/O
error does operations that are spared one; so do scripts whose statements do not
(`ReachesSpared.storage`).
-/

namespace Relational

open Store (Operation)

/-! ## Work -/

namespace Work

/-- The work changes the storage by operations of a kind, and ends with an I/O error if one of them is
not spared it. -/
def Does {α : Type} (P : Operation → Prop) (work : Work α) : Prop :=
  ∀ engine, ∃ ops, (∀ op ∈ ops, P op) ∧ (work engine).2.storage = engine.storage.run ops ∧
    ((work engine).1 ≠ .error (.error .io) → engine.storage.RunsSpared ops)

variable {α β : Type} {P : Operation → Prop}

theorem does_of_storage_eq {work : Work α}
    (h : ∀ engine, (work engine).2.storage = engine.storage) : work.Does P :=
  fun engine => ⟨[], by simp, h engine, fun _ => trivial⟩

theorem does_pure (a : α) : Does P (pure a : Work α) :=
  does_of_storage_eq fun _ => rfl

theorem does_throw (failure : Failure) : Does P (throw failure : Work α) :=
  does_of_storage_eq fun _ => rfl

theorem does_sessions (f : Sessions → Sessions) : Does P (Work.sessions f) :=
  does_of_storage_eq fun _ => rfl

theorem bind_run (work : Work α) (f : α → Work β) (engine : Engine) :
    (work >>= f) engine =
      match work engine with
      | (.ok a, engine) => f a engine
      | (.error failure, engine) => (.error failure, engine) := by
  change ExceptT.bind work f engine = _
  rw [ExceptT.bind, ExceptT.mk]
  change ExceptT.bindCont f (work engine).1 (work engine).2 = _
  obtain ⟨result, engine'⟩ := work engine
  cases result <;> rfl

theorem Does.bind {work : Work α} {f : α → Work β} (h : work.Does P) (hf : ∀ a, (f a).Does P) :
    (work >>= f).Does P := by
  intro engine
  obtain ⟨ops, hops, hstorage, hspared⟩ := h engine
  rw [bind_run]
  split
  · rename_i a engine' he
    obtain ⟨more, hmore, hstorage', hspared'⟩ := hf a engine'
    rw [he] at hstorage hspared
    rw [hstorage] at hstorage' hspared'
    refine ⟨ops ++ more, fun op hop => ?_, ?_, fun hio => ?_⟩
    · exact (List.mem_append.mp hop).elim (hops op) (hmore op)
    · rw [hstorage', Storage.run_append]
    · exact Storage.runsSpared_append.mpr ⟨hspared nofun, hspared' hio⟩
  · rename_i failure engine' he
    rw [he] at hstorage hspared
    exact ⟨ops, hops, hstorage, fun hio => hspared fun h => hio (by cases h; rfl)⟩

theorem ask_run (question : Engine → Except Error α) (engine : Engine) :
    Work.ask question engine = (Failure.lift (question engine), engine) := by
  rw [Work.ask, bind_run]
  have hget : (get : Work Engine) engine = (.ok engine, engine) := rfl
  rw [hget]
  dsimp only
  cases question engine <;> rfl

/-- What follows a question has its answer. -/
theorem does_ask_bind {question : Engine → Except Error α} {f : α → Work β}
    (h : ∀ engine a, question engine = .ok a → (f a).Does P) :
    (Work.ask question >>= f).Does P := by
  intro engine
  rw [bind_run, ask_run]
  cases ha : question engine with
  | ok a => exact h engine a ha engine
  | error e => exact ⟨[], by simp, rfl, fun _ => trivial⟩

theorem does_storage {operation : Storage → Except Failure α × Storage} (op : Operation)
    (h : ∀ storage, ((operation storage).1.map fun _ => ()) = storage.outcome op ∧
      (operation storage).2 = storage.after op) (hop : P op) : Does P (Work.storage operation) := by
  intro engine
  obtain ⟨houtcome, hstorage⟩ := h engine.storage
  refine ⟨[op], by simpa using hop, hstorage, fun hio => ⟨?_, trivial⟩⟩
  refine Storage.spared_of_outcome fun he => hio ?_
  rw [← houtcome] at he
  change (operation engine.storage).1 = _
  cases hresult : (operation engine.storage).1 with
  | ok a => rw [hresult] at he; nomatch he
  | error failure =>
    rw [hresult] at he
    exact congrArg _ (Except.error.inj he)

end Work

/-! ## Statements -/

/-- The operations that a statement asks for. -/
inductive Statement.Asks : Statement → Operation → Prop
  | createDatabase (name : String) : Asks (.createDatabase name) (.createDatabase name)
  | dropDatabase (name : String) : Asks (.dropDatabase name) (.dropDatabase name)
  | createTable (database : String) {name : String} {definition : List Char} {schema : Schema} :
    Schema.ofDefinition name definition = .ok schema →
      Asks (.createTable name definition) (.createTable database schema)
  | dropTable (database name : String) : Asks (.dropTable name) (.dropTable database name)
  | createIndex (database table : String) (definition : IndexDefinition) :
    Asks (.createIndex definition table) (.createIndex database table definition)
  | insert (database table : String) (columns : Option (List String)) (texts : List (List Char))
    (row : Row) : Asks (.insert table columns texts) (.insertRow database table row)
  | delete (database table : String) (condition : Option (List Char)) (ids : SortedSet RowId) :
    Asks (.delete table condition) (.deleteRows database table ids)

theorem Work.does_insertRows {P : Operation → Prop} {database table : String}
    (h : ∀ row, P (.insertRow database table row)) (rows : List Row) :
    (Work.insertRows database table rows).Does P := by
  induction rows with
  | nil => exact does_pure _
  | cons row rows ih =>
    exact (does_storage _ (fun _ => ⟨rfl, rfl⟩) (h row)).bind fun _ => ih

theorem Statement.does_perform (session : SessionId) (statement : Statement) :
    (statement.perform session).Does statement.Asks := by
  cases statement with
  | createDatabase name =>
    exact (Work.does_storage _ (fun _ => ⟨rfl, rfl⟩) (.createDatabase name)).bind fun _ =>
      Work.does_pure _
  | dropDatabase name =>
    exact (Work.does_storage _ (fun _ => ⟨rfl, rfl⟩) (.dropDatabase name)).bind fun _ =>
      (Work.does_sessions _).bind fun _ => Work.does_pure _
  | use name =>
    exact Work.does_ask_bind fun _ _ _ => (Work.does_sessions _).bind fun _ => Work.does_pure _
  | createTable name definition =>
    refine Work.does_ask_bind fun _ database _ => ?_
    refine Work.does_ask_bind fun _ schema hschema => ?_
    exact (Work.does_storage _ (fun _ => ⟨rfl, rfl⟩) (.createTable database hschema)).bind fun _ =>
      Work.does_pure _
  | dropTable name =>
    refine Work.does_ask_bind fun _ database _ => ?_
    exact (Work.does_storage _ (fun _ => ⟨rfl, rfl⟩) (.dropTable database name)).bind fun _ =>
      Work.does_pure _
  | createIndex definition table =>
    refine Work.does_ask_bind fun _ database _ => ?_
    exact (Work.does_storage _ (fun _ => ⟨rfl, rfl⟩) (.createIndex database table definition)).bind
      fun _ => Work.does_pure _
  | insert table columns texts =>
    refine Work.does_ask_bind fun _ database _ => ?_
    have hrows (names : List String) : Work.Does (Statement.Asks (.insert table columns texts)) do
        let rows ← Work.ask fun _ => Row.readAll names texts
        Work.insertRows database table rows
        return Answer.ofCount rows.length :=
      Work.does_ask_bind fun _ rows _ =>
        (Work.does_insertRows (.insert database table columns texts) rows).bind fun _ =>
          Work.does_pure _
    cases columns with
    | some names => exact hrows names
    | none => exact Work.does_ask_bind fun _ names _ => hrows names
  | delete table condition =>
    refine Work.does_ask_bind fun _ database _ => ?_
    refine Work.does_ask_bind fun _ ids _ => ?_
    exact (Work.does_storage _ (fun _ => ⟨rfl, rfl⟩) (.delete database table condition ids)).bind
      fun _ => Work.does_pure _
  | select selection =>
    exact Work.does_ask_bind fun _ database _ => Work.does_of_storage_eq fun engine => by
      rw [Work.ask_run]
  | faulty kind fault => exact Work.does_throw _

/-! ## Engines -/

namespace Engine

theorem answer_eq (engine : Engine) (session : SessionId) (statement : Statement) :
    engine.answer session statement =
      match statement.perform session engine with
      | (.ok answer, engine) => (.ok answer, engine)
      | (.error (.error e), engine) => (.ok (.ofError (e.message engine.mode)), engine)
      | (.error failure, engine) => (.error failure, engine) := rfl

theorem answer_snd (engine : Engine) (session : SessionId) (statement : Statement) :
    (engine.answer session statement).2 = (statement.perform session engine).2 := by
  unfold answer
  split
  all_goals
    rename_i h
    exact (congrArg Prod.snd h).symm

/-- The storage behind a statement is the one before it behind the operations that the statement
asks for. -/
theorem storage_answer (engine : Engine) (session : SessionId) (statement : Statement) :
    ∃ ops, (∀ op ∈ ops, statement.Asks op) ∧
      (engine.answer session statement).2.storage = engine.storage.run ops ∧
      ((statement.perform session engine).1 ≠ .error (.error .io) →
        engine.storage.RunsSpared ops) := by
  rw [answer_snd]
  exact statement.does_perform session engine

/-- Whether none of the statements ends with an I/O error, as far as they are carried out. -/
def spares (engine : Engine) (session : SessionId) : List Statement → Bool
  | [] => true
  | statement :: statements =>
    match (statement.perform session).run.run engine with
    | (.ok _, engine) => engine.spares session statements
    | (.error (.error e), engine) => e != .io && engine.spares session statements
    | (.error _, _) => true

theorem spares_cons {engine : Engine} {session : SessionId} {statement : Statement}
    {statements : List Statement} (h : engine.spares session (statement :: statements) = true) :
    (statement.perform session engine).1 ≠ .error (.error .io) ∧
      ∀ answer engine', engine.answer session statement = (.ok answer, engine') →
        engine'.spares session statements = true := by
  have hrun : (statement.perform session).run.run engine = statement.perform session engine := rfl
  unfold spares at h
  unfold answer
  rw [hrun] at h ⊢
  split at h
  · rename_i he
    rw [he]
    exact ⟨by rintro ⟨⟩, fun _ _ heq => by cases heq; exact h⟩
  · rename_i e _ he
    rw [Bool.and_eq_true, bne_iff_ne] at h
    rw [he]
    exact ⟨fun heq => h.1 (by cases heq; rfl), fun _ _ heq => by cases heq; exact h.2⟩
  · rename_i failure _ hfailure he
    rw [he]
    refine ⟨fun heq => ?_, fun answer engine' heq => ?_⟩
    · cases heq
      exact hfailure _ rfl
    · cases failure with
      | error e => exact absurd rfl (hfailure e)
      | missingCell column => cases heq

theorem storage_answerAll (session : SessionId) (statements : List Statement) (engine : Engine) :
    ∃ ops, (∀ op ∈ ops, ∃ statement ∈ statements, statement.Asks op) ∧
      (engine.answerAll session statements).2.storage = engine.storage.run ops ∧
      (engine.spares session statements = true → engine.storage.RunsSpared ops) := by
  induction statements generalizing engine with
  | nil => exact ⟨[], by simp, rfl, fun _ => trivial⟩
  | cons statement statements ih =>
    obtain ⟨ops, hops, hstorage, hspared⟩ := engine.storage_answer session statement
    rw [answerAll]
    split
    · rename_i answer engine' he
      obtain ⟨more, hmore, hstorage', hspared'⟩ := ih engine'
      rw [he] at hstorage
      rw [hstorage] at hstorage' hspared'
      refine ⟨ops ++ more, fun op hop => ?_, ?_, fun hspares => ?_⟩
      · rcases List.mem_append.mp hop with hop | hop
        · exact ⟨statement, List.mem_cons_self, hops op hop⟩
        · obtain ⟨other, hmem, hasks⟩ := hmore op hop
          exact ⟨other, List.mem_cons_of_mem _ hmem, hasks⟩
      · rw [Storage.run_append, ← hstorage']
      · obtain ⟨hio, hrest⟩ := spares_cons hspares
        exact Storage.runsSpared_append.mpr ⟨hspared hio, hspared' (hrest answer engine' he)⟩
    · rename_i failure engine' he
      rw [he] at hstorage
      exact ⟨ops, fun op hop => ⟨statement, List.mem_cons_self, hops op hop⟩, hstorage,
        fun hspares => hspared (spares_cons hspares).1⟩

/-- The statements of a script, if it can be read. -/
def statements (script : List Char) : List Statement :=
  match Script.batches script with
  | .ok batches => batches.flatten
  | .error _ => []

theorem storage_execute (engine : Engine) (session : SessionId) (script : List Char) :
    ∃ ops, (∀ op ∈ ops, ∃ statement ∈ statements script, statement.Asks op) ∧
      (engine.execute session script).2.storage = engine.storage.run ops ∧
      (engine.spares session (statements script) = true → engine.storage.RunsSpared ops) := by
  unfold execute statements
  cases Script.batches script with
  | ok batches => exact storage_answerAll session batches.flatten engine
  | error e => exact ⟨[], by simp, rfl, fun _ => trivial⟩

/-- What scripts and sessions, in any order, make of an engine. -/
inductive Reaches (start : Engine) : Engine → Prop
  | refl : Reaches start start
  | execute {engine : Engine} (session : SessionId) (script : List Char) :
    Reaches start engine → Reaches start (engine.execute session script).2
  | openSession {engine : Engine} : Reaches start engine → Reaches start engine.openSession.2
  | closeSession {engine : Engine} (session : SessionId) :
    Reaches start engine → Reaches start (engine.closeSession session)
  | setMode {engine : Engine} (mode : ErrorMode) :
    Reaches start engine → Reaches start (engine.setMode mode)

/-- Operations that statements of scripts ask for. -/
def IsAsked (op : Operation) : Prop :=
  ∃ script, ∃ statement ∈ statements script, statement.Asks op

theorem Reaches.storage {start engine : Engine} (h : Reaches start engine) :
    ∃ ops, (∀ op ∈ ops, IsAsked op) ∧ engine.storage = start.storage.run ops := by
  induction h with
  | refl => exact ⟨[], by simp, rfl⟩
  | @execute engine session script _ ih =>
    obtain ⟨ops, hops, hstorage⟩ := ih
    obtain ⟨more, hmore, hstorage', -⟩ := engine.storage_execute session script
    refine ⟨ops ++ more, fun op hop => ?_, ?_⟩
    · exact (List.mem_append.mp hop).elim (hops op) fun hop => ⟨script, hmore op hop⟩
    · rw [Storage.run_append, ← hstorage, ← hstorage']
  | openSession _ ih => exact ih
  | closeSession _ _ ih => exact ih
  | setMode _ _ ih => exact ih

theorem Reaches.store {start engine : Engine} (h : Reaches start engine) :
    ∃ ops, (∀ op ∈ ops, IsAsked op) ∧ engine.storage.store = start.storage.store.run ops := by
  obtain ⟨ops, hops, hstorage⟩ := h.storage
  exact ⟨ops, hops, by rw [hstorage, Storage.store_run]⟩

/-- What scripts and sessions make of an engine, as long as no statement ends with an I/O error. -/
inductive ReachesSpared (start : Engine) : Engine → Prop
  | refl : ReachesSpared start start
  | execute {engine : Engine} (session : SessionId) (script : List Char) :
    ReachesSpared start engine → engine.spares session (statements script) = true →
      ReachesSpared start (engine.execute session script).2
  | openSession {engine : Engine} :
    ReachesSpared start engine → ReachesSpared start engine.openSession.2
  | closeSession {engine : Engine} (session : SessionId) :
    ReachesSpared start engine → ReachesSpared start (engine.closeSession session)
  | setMode {engine : Engine} (mode : ErrorMode) :
    ReachesSpared start engine → ReachesSpared start (engine.setMode mode)

theorem ReachesSpared.storage {start engine : Engine} (h : ReachesSpared start engine) :
    ∃ ops, (∀ op ∈ ops, IsAsked op) ∧ engine.storage = start.storage.run ops ∧
      start.storage.RunsSpared ops := by
  induction h with
  | refl => exact ⟨[], by simp, rfl, trivial⟩
  | @execute engine session script _ hspares ih =>
    obtain ⟨ops, hops, hstorage, hspared⟩ := ih
    obtain ⟨more, hmore, hstorage', hspared'⟩ := engine.storage_execute session script
    rw [hstorage] at hstorage' hspared'
    refine ⟨ops ++ more, fun op hop => ?_, ?_, ?_⟩
    · exact (List.mem_append.mp hop).elim (hops op) fun hop => ⟨script, hmore op hop⟩
    · rw [Storage.run_append, ← hstorage']
    · exact Storage.runsSpared_append.mpr ⟨hspared, hspared' hspares⟩
  | openSession _ ih => exact ih
  | closeSession _ _ ih => exact ih
  | setMode _ _ ih => exact ih

end Engine

end Relational
