import Relational.Proofs.Engine.Sound
import Relational.Proofs.Query.Fault

/-!
# Conditions of texts in reached states

A condition that is read from a text is a checked tree whose leaves fit, and the tables that scripts can
make are sound. So its evaluation over joined tables of a database ends with rows or with an error of
what was asked, in every state that is reached (`Engine.isInternal_of_evaluate`).
-/

namespace Relational.Engine

/-- What is read from a text passes the check of trees, and each leaf holds what it is for: a leaf for
columns a column that is written with a name, a leaf for values a constant that is written without one.
Over tables of a database in a state that scripts can reach, joined by any clauses, its evaluation does
not end with an internal error. -/
theorem isInternal_of_evaluate {text : List Char} {condition : Condition}
    (hread : Condition.read text = .ok condition) :
    condition.check = .ok () ∧
    (∃ tokens, Lexer.meaningful text = .ok tokens ∧ condition.LeavesFit tokens) ∧
    ∀ {start engine : Engine} {database table : String} {tables : Database} {first : Source}
      {clauses : List JoinClause} {joins : List Join} {scope : Scope},
      start.storage.store = .empty → start.Reaches engine →
      engine.storage.store.databases.get? database = some tables →
      tables.get? table = some first.table →
      JoinClause.bind tables ⟨[first]⟩ clauses = .ok (joins, scope) →
      ∀ error, (⟨first, joins, scope⟩ : Query).evaluate condition = .error error →
        error.isInternal = false := by
  obtain ⟨tokens, htokens, hcondition⟩ := bind_eq_ok_iff.mp hread
  have hwrites := Condition.ofTokens_eq_ok_iff.mp hcondition
  have hcheck := hwrites.check
  have hleaves := hwrites.leavesFit (Lexer.isLexed_of_meaningful htokens)
  refine ⟨hcheck, ⟨tokens, htokens, hleaves⟩, ?_⟩
  intro start engine database table tables first clauses joins scope hstart hengine htables hfirst hjoins
  exact Query.isSafe_evaluate (hengine.sound_query hstart htables hfirst hjoins) hcheck hleaves

/-- A condition that compares a number with a text. -/
def mismatchText : List Char :=
  "NOT (7 <= k OR 2 * 3 = t.id) OR v = 'x'".toList

set_option maxRecDepth 2000 in
theorem isInternal_mismatchText : ∃ condition tables table joins scope error,
    Condition.read mismatchText = .ok condition ∧
    joinEngine.storage.store.databases.get? "d" = some tables ∧
    tables.get? "t" = some table ∧
    JoinClause.bind tables ⟨[⟨table, none, false⟩]⟩ [⟨"u", none, "t.id", "u.t"⟩] =
      .ok (joins, scope) ∧
    (⟨⟨table, none, false⟩, joins, scope⟩ : Query).evaluate condition = .error error ∧
    condition.check = .ok () ∧ error.isInternal = false := by
  have hrun : ((Condition.read mismatchText).toOption.any fun condition =>
      (joinEngine.storage.store.databases.get? "d").any fun tables =>
        (tables.get? "t").any fun table =>
          (JoinClause.bind tables ⟨[⟨table, none, false⟩]⟩ [⟨"u", none, "t.id", "u.t"⟩]).toOption.any
            fun bound => !((⟨⟨table, none, false⟩, bound.1, bound.2⟩ : Query).evaluate
              condition).isOk) = true := by
    have hscript : joinScript = _ := String.toList_ofList
    rewrite [joinEngine_eq, behind, hscript]
    decide +kernel
  simp only [Option.any_eq_true, toOption_eq_some_iff, Bool.not_eq_true'] at hrun
  obtain ⟨condition, hread, tables, htables, table, htable, ⟨joins, scope⟩, hjoins, hrefused⟩ := hrun
  obtain ⟨hcheck, -, hevaluate⟩ := isInternal_of_evaluate hread
  cases herror : (⟨⟨table, none, false⟩, joins, scope⟩ : Query).evaluate condition with
  | ok rows =>
    rw [herror] at hrefused
    cases hrefused
  | error error =>
    exact ⟨condition, tables, table, joins, scope, error, hread, htables, htable, hjoins, herror, hcheck,
      hevaluate rfl reaches_joinEngine htables htable hjoins error herror⟩

end Relational.Engine
