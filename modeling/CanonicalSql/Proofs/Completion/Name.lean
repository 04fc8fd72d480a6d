import Mathlib
import CanonicalSql.Proofs.Completion.Rule
import CanonicalSql.Proofs.Reading.Statement

/-! The rules for names are viable.  A name stands wherever one is missing. -/

namespace CanonicalSql

open Keyword Word CanonicalSql.Symbol

/-- What is no alias: neither its word nor a name. -/
def NoAlias (r : List Spelled) : Prop :=
  (Terminal.keyword AS).admits (kindAt r 0) = false ∧ (kindAt r 0).name? = none

theorem Starts.noAlias {us : List Terminal} {r : List Spelled} (h : Starts us r)
    (words : us.all (!Terminal.isWord ·) = true)
    (apart : Terminal.keyword AS ∉ us) : NoAlias r :=
  ⟨h.admits apart, h.begins.name? words⟩

namespace Completion

open Parse Grammar

variable {K : Completion} {α : Type} {I S F : Rests} {near : Prop} {us : List Terminal}

/-! ### Tokens with a value -/

/-- The token that stands for a name wherever one is missing. -/
def someName : Spelled := ⟨.ident "a", "a"⟩

/-- The token that stands for an expression wherever one is missing. -/
def someNumber : Spelled := ⟨.number "1", "1"⟩

theorem filling_someName : Filling [someName] :=
  .of_token? (.unit "a") (by cbv) rfl (by decide)

theorem filling_someNumber : Filling [someNumber] :=
  .of_token? (.number "1") (by cbv) rfl (by decide)

/-- Where the kind of a token tells something, there is a token. -/
theorem ne_nil_of_kindAt {s : List Spelled} {k : Token.Kind} (h : kindAt s 0 = k) (other : k ≠ .eof) :
    s ≠ [] := by
  rintro rfl
  exact other h.symm

theorem viable_identifier : K.Viable Nothing (StartsWith someName) F near (fun _ _ => identifier) := by
  refine .peek (fun k => k) (.ident "a") (fun n s less => ?_) ?fill
  case fill => exact .taken "a" filling_someName fun s => ⟨⟨s, rfl⟩, rfl⟩
  cases named : (kindAt s 0).name? with
  | none => exact .fail _
  | some name =>
    refine .taken name ?_
    rintro rfl
    cases named

theorem viable_stringLiteral (expected : Expectation) :
    K.Viable Nothing Anything F near (fun _ _ => stringLiteral expected) := by
  have silent : Filling [stringToken ""] := .of_token? (.string "") trivial rfl (by decide)
  refine .peek (fun k => k) (.string "") (fun n s less => ?_) ?fill
  case fill => exact .taken "" silent fun s => ⟨trivial, rfl⟩
  cases hk : kindAt s 0 with
  | string value => exact .taken value (ne_nil_of_kindAt hk (by simp))
  | _ => exact .fail _

/-- A label is made of the kind and the text of its token. -/
theorem viable_label (expected : Expectation) :
    K.Viable Nothing (StartsWith someName) F near (fun _ _ => label expected) := by
  refine ⟨fun n s less => ?_, [someName], "a", filling_someName, fun r _ => ⟨r, rfl⟩, 0,
    fun r _ _ _ _ _ p hp room _ => (reads_label "a" expected r p hp).1 (by simp)⟩
  refine .current .start (fun t t' kind text => by simp only [kind, text]) ?_
  cases s with
  | nil => exact .fail _
  | cons first s =>
    split
    · exact .taken _ (by simp)
    · exact .taken _ (by simp)
    · exact .taken _ (by simp)
    · exact .fail _

/-! ### Names -/

theorem viable_qualifiedName (noDot : ∀ r, F r → (Terminal.symbol dot).admits (kindAt r 0) = false) :
    K.Viable Nothing (StartsWith someName) F near (fun _ _ => qualifiedName) :=
  .bind viable_identifier fun _ => .reject (viable_identifier.made _)
    (.pure _ fun r h => ⟨h.1, noDot r h.1⟩)

theorem viable_aliasName (ends : ∀ r, F r → NoAlias r) :
    K.Viable F F F near (fun _ _ => aliasName) := by
  have none : ∀ r, Fits F r → (F r ∧ (Terminal.keyword AS).admits (kindAt r 0) = false) ∧
      (kindAt r 0).name?.isSome = false := fun r h => by
    obtain ⟨word, name⟩ := ends r h.1
    exact ⟨⟨h.1, word⟩, by rw [name]; rfl⟩
  refine .reject (viable_identifier.map some) (.peek (fun k => k.name?.isSome)
    (Y := fun named _ _ => if named = true then some <$> identifier else pure Option.none) false
    (fun n s less => ?_) (.pure Option.none none))
  cases named : (kindAt s 0).name?.isSome with
  | true => exact ((viable_identifier.map some).course n s less).mono (fun _ _ h => h.elim) (fun _ h => h) id
  | false => exact .pure Option.none none

theorem viable_nameList : K.Viable Nothing Anything F near (fun _ _ => nameList) :=
  .between (.list viable_identifier (by decide)) (by decide) (by decide)

theorem viable_optionalNameList
    (stops : ∀ r, F r → (Terminal.symbol leftParen).admits (kindAt r 0) = false) :
    K.Viable F F F near (fun _ _ => optionalNameList) :=
  .seen viable_nameList (.pure [] fun r h => ⟨h.1, stops r h.1⟩)

theorem viable_ifNotExists : K.Viable F F F near (fun _ _ => ifNotExists) :=
  .acceptedAll (.of_terminals ⟨⟨_, rfl, by decide⟩, by decide⟩)

theorem viable_ifExists : K.Viable F F F near (fun _ _ => ifExists) :=
  .acceptedAll (.of_terminals ⟨⟨_, rfl, by decide⟩, by decide⟩)

/-- A rule behind `IF EXISTS`, which may be left out. -/
theorem Viable.ifExists {Y : Bool → Scheme α}
    (hy : ∀ b, K.Viable Nothing (StartsWith someName) F near (Y b)) :
    K.Viable Nothing Anything F near (fun g n => Parse.ifExists >>= fun b => Y b g n) :=
  (Viable.bind_solid (G := StartsWith someName) viable_ifExists hy).mono (fun _ _ h => h)
    (fun _ _ => trivial) (fun _ h => h) id

/-- A rule behind `IF NOT EXISTS`, which may be left out. -/
theorem Viable.ifNotExists {Y : Bool → Scheme α}
    (hy : ∀ b, K.Viable Nothing (StartsWith someName) F near (Y b)) :
    K.Viable Nothing Anything F near (fun g n => Parse.ifNotExists >>= fun b => Y b g n) :=
  (Viable.bind_solid (G := StartsWith someName) viable_ifNotExists hy).mono (fun _ _ h => h)
    (fun _ _ => trivial) (fun _ h => h) id

theorem viable_onCluster : K.Viable F F F near (fun _ _ => onCluster) :=
  .acceptAll (.of_terminals ⟨⟨_, rfl, by decide⟩, by decide⟩) (viable_identifier.map some) (.idle none)

end Completion

end CanonicalSql
