import CanonicalSql.Document
import CanonicalSql.Proofs.Chain
import CanonicalSql.Proofs.Course.Step

/-! The single steps that a run of the parser is made of, and the parsers it goes through on its way.  A plan
can read the tokens, move over a token, refuse a token, go on behind another plan, run a plan one level deeper,
and run a chain.  In a chain levels are opened one by one, as links, and nothing there closes them; they are
counted, and when the chain has ended, with a result or with an error, that many levels are closed at once.
What is closed is what was opened: a chain ends with as many levels more than at its start as it has links. -/

namespace CanonicalSql

namespace Parser

/-- The parser with one level more open. -/
def deeper (p : Parser) : Parser := { p with depth := p.depth + 1 }

/-- The parser with some levels closed. -/
def closed (levels : ℕ) (p : Parser) : Parser := { p with depth := p.depth - levels }

/-- What a parser does at once: it moves over a token, opens a level if the limit allows one more, or closes
levels that are open. -/
inductive Step : Parser → Parser → Prop
  | move (p : Parser) : Step p { p with cursor := p.cursor.advance }
  | deeper {p : Parser} : p.depth < p.limit → Step p p.deeper
  | close {p : Parser} {levels : ℕ} : levels ≤ p.depth → Step p (p.closed levels)

/-- A way of single steps from one parser to another, given by the parsers behind the first one.  On the way
at least `floor` levels are open. -/
inductive Way (floor : ℕ) : Parser → List Parser → Parser → Prop
  | stay (p : Parser) : Way floor p [] p
  | next {p q r : Parser} {way : List Parser} :
      p.Step q → floor ≤ q.depth → Way floor q way r → Way floor p (q :: way) r

/-- What no step takes away: the vector and the limit stay as they are, and the cursor does not go back. -/
structure Onward (p q : Parser) : Prop where
  limit : q.limit = p.limit
  size : q.cursor.size = p.cursor.size
  last : q.cursor.last = p.cursor.last
  passed : p.cursor.passed ≤ q.cursor.passed
  upcoming : q.cursor.upcoming = p.cursor.upcoming.drop (q.cursor.passed - p.cursor.passed)

namespace Onward

variable {p q r : Parser}

/-- A step that leaves the cursor where it is. -/
theorem of_eq (limit : q.limit = p.limit) (cursor : q.cursor = p.cursor) : p.Onward q := by
  refine ⟨limit, ?_, ?_, ?_, ?_⟩ <;> rw [cursor]
  rw [Nat.sub_self, List.drop_zero]

theorem refl (p : Parser) : p.Onward p := .of_eq rfl rfl

theorem trans (h : p.Onward q) (h' : q.Onward r) : p.Onward r := by
  refine ⟨h'.limit.trans h.limit, h'.size.trans h.size, h'.last.trans h.last,
    h.passed.trans h'.passed, ?_⟩
  rw [h'.upcoming, h.upcoming, List.drop_drop]
  have first := h.passed
  have second := h'.passed
  congr 1
  omega

/-- What a cursor has not passed is still ahead. -/
theorem remaining (h : p.Onward q) : q.cursor.remaining ≤ p.cursor.remaining := by
  have size := h.size
  have passed := h.passed
  simp only [Cursor.size, Cursor.upcoming, List.length_cons] at size
  unfold Cursor.remaining
  omega

end Onward

namespace Step

variable {p q : Parser}

theorem onward (h : p.Step q) : p.Onward q := by
  cases h with
  | deeper | close => exact .of_eq rfl rfl
  | move =>
    obtain ⟨⟨passed, current, ahead⟩, depth, limit⟩ := p
    by_cases ended : current.kind = .eof
    · exact .of_eq rfl (if_pos ended)
    · cases ahead with
      | nil => exact .of_eq rfl (if_neg ended)
      | cons next ahead =>
        have moved : Cursor.advance ⟨passed, current, next :: ahead⟩ = ⟨passed + 1, next, ahead⟩ :=
          if_neg ended
        refine ⟨rfl, Cursor.size_advance _, Cursor.last_advance _, ?_, ?_⟩
        · rw [moved]
          exact Nat.le_succ passed
        · simp only [moved, Nat.add_sub_cancel_left]
          rfl

theorem depth_le (h : p.Step q) (room : p.depth ≤ p.limit) : q.depth ≤ q.limit := by
  cases h with
  | move => exact room
  | deeper more => exact more
  | close => exact (Nat.sub_le _ _).trans room

end Step

namespace Way

variable {floor base : ℕ} {p q r : Parser} {way rest : List Parser}

theorem one (h : p.Step q) (open' : floor ≤ q.depth) : Way floor p [q] q := .next h open' (.stay q)

theorem append (h : Way floor p way q) (h' : Way floor q rest r) : Way floor p (way ++ rest) r := by
  induction h with
  | stay => exact h'
  | next step some _ ih => exact .next step some (ih h')

theorem lower (h : Way floor p way q) (hb : base ≤ floor) : Way base p way q := by
  induction h with
  | stay p => exact .stay p
  | next step some _ ih => exact .next step (hb.trans some) ih

theorem floor_le (h : Way floor p way q) : ∀ r ∈ way, floor ≤ r.depth := by
  induction h with
  | stay => exact List.forall_mem_nil _
  | next _ some _ ih => exact List.forall_mem_cons.2 ⟨some, ih⟩

theorem onward (h : Way floor p way q) : p.Onward q ∧ ∀ r ∈ way, p.Onward r := by
  induction h with
  | stay p => exact ⟨.refl p, List.forall_mem_nil _⟩
  | next step _ _ ih =>
    refine ⟨step.onward.trans ih.1, List.forall_mem_cons.2 ⟨step.onward, fun r hr => ?_⟩⟩
    exact step.onward.trans (ih.2 r hr)

/-- The limit is kept all the way. -/
theorem depth_le (h : Way floor p way q) (room : p.depth ≤ p.limit) : ∀ r ∈ way, r.depth ≤ p.limit := by
  induction h with
  | stay => exact List.forall_mem_nil _
  | next step _ _ ih =>
    have room' := step.depth_le room
    refine List.forall_mem_cons.2 ⟨room'.trans_eq step.onward.limit, fun r hr => ?_⟩
    exact (ih room' r hr).trans_eq step.onward.limit

/-- The cursor never goes back. -/
theorem pairwise (h : Way floor p way q) :
    (p :: way).Pairwise fun r s => r.cursor.passed ≤ s.cursor.passed := by
  induction h with
  | stay p => exact List.pairwise_singleton _ p
  | next step _ rest ih =>
    refine List.pairwise_cons.2 ⟨fun s hs => ?_, ih⟩
    exact ((Way.next step (Nat.zero_le _) (rest.lower (Nat.zero_le _))).onward.2 s hs).passed

end Way

end Parser

/-! ### Plans -/

mutual

/-- Plans of a parse. -/
inductive Plan : Type → Type 1
  /-- Reads the tokens. -/
  | look {α : Type} (f : Cursor → α) : Plan α
  /-- Moves over a token. -/
  | move : Plan Token
  /-- Refuses a token. -/
  | refuse {α : Type} (found : Cursor → Token) (expected : Expectation) : Plan α
  /-- Goes on behind another plan with what that one gives. -/
  | follow {α β : Type} (x : Plan α) (f : α → Plan β) : Plan β
  /-- Runs a plan one level deeper. -/
  | level {α : Type} (x : Plan α) : Plan α
  /-- Runs a chain, and closes the levels of its links. -/
  | chain {α : Type} (x : ChainPlan α) : Plan α

/-- Plans of a chain. -/
inductive ChainPlan : Type → Type 1
  /-- Does what a plan without links does. -/
  | lift {α : Type} (x : Plan α) : ChainPlan α
  /-- Adds a link. -/
  | link : ChainPlan Unit
  /-- Goes on behind another plan with what that one gives. -/
  | follow {α β : Type} (x : ChainPlan α) (f : α → ChainPlan β) : ChainPlan β

end

mutual

/-- The step of a parse that a plan is for. -/
def Plan.run {α : Type} : Plan α → Parse α
  | .look f => fun p => .ok (f p.cursor) p
  | .move => Parse.advance
  | .refuse found expected => fun p => .error (.unexpected (found p.cursor) expected) p
  | .follow x f => x.run >>= fun a => (f a).run
  | .level x => Parse.descend x.run
  | .chain x => Parse.leftChain x.run

/-- The chain that a plan is for. -/
def ChainPlan.run {α : Type} : ChainPlan α → Chain α
  | .lift x => Chain.lift x.run
  | .link => Chain.addLink
  | .follow x f => x.run >>= fun a => (f a).run

end

/-- Where a chain ends, with a result or with an error. -/
def Chain.finish {α : Type} (x : Chain α) (s : Linked) : Linked :=
  match x s with
  | .ok _ s => s
  | .error _ s => s

mutual

/-- The parsers that a run goes through behind the one it starts with. -/
def Plan.way {α : Type} : Plan α → Parser → List Parser
  | .look _, _ | .refuse _ _, _ => []
  | .move, p => [{ p with cursor := p.cursor.advance }]
  | .follow x f, p =>
    x.way p ++ match x.run p with
      | .ok a q => (f a).way q
      | .error _ _ => []
  | .level x, p =>
    if p.depth < p.limit then
      p.deeper :: (x.way p.deeper ++ [(x.run.outcome p.deeper).2.closed 1])
    else []
  | .chain x, p => x.way ⟨p, 0⟩ ++ [(x.run.finish ⟨p, 0⟩).parser.closed (x.run.finish ⟨p, 0⟩).links]

/-- The parsers that the run of a chain goes through behind the one it starts with. -/
def ChainPlan.way {α : Type} : ChainPlan α → Linked → List Parser
  | .lift x, s => x.way s.parser
  | .link, s => if s.parser.depth < s.parser.limit then [s.parser.deeper] else []
  | .follow x f, s =>
    x.way s ++ match x.run s with
      | .ok a s => (f a).way s
      | .error _ _ => []

end

/-! ### Levels in balance -/

/-- A level is closed however the step inside it ends. -/
theorem Parse.outcome_descend {α : Type} {x : Parse α} {p : Parser} (room : p.depth < p.limit) :
    ((descend x).outcome p).2 = (x.outcome p.deeper).2.closed 1 := by
  unfold outcome descend
  rw [if_pos room, ← Parser.deeper]
  cases x p.deeper <;> rfl

/-- The levels of links are closed however the chain ends. -/
theorem Parse.outcome_leftChain {α : Type} (x : Chain α) (p : Parser) :
    ((leftChain x).outcome p).2 = (x.finish ⟨p, 0⟩).parser.closed (x.finish ⟨p, 0⟩).links := by
  unfold outcome leftChain Chain.finish
  cases x ⟨p, 0⟩ <;> rfl

theorem Chain.finish_lift {α : Type} (x : Parse α) (s : Linked) :
    (Chain.lift x).finish s = ⟨(x.outcome s.parser).2, s.links⟩ := by
  unfold finish lift Parse.outcome
  cases x s.parser <;> rfl

/-- One way behind another that has closed no level that was open before. -/
theorem Parser.Way.behind {p q r : Parser} {way rest : List Parser} (h : p.Way p.depth way q)
    (deep : p.depth ≤ q.depth) (h' : q.Way q.depth rest r) : p.Way p.depth (way ++ rest) r :=
  h.append (h'.lower deep)

mutual

/-- A plan closes the levels it opens, and no others: it is a way of single steps on which the levels that
were open stay open, and at its end just those are open again. -/
theorem Plan.balanced {α : Type} : (x : Plan α) → (p : Parser) →
    p.Way p.depth (x.way p) (x.run.outcome p).2 ∧ (x.run.outcome p).2.depth = p.depth
  | .look _, p => ⟨.stay p, rfl⟩
  | .refuse _ _, p => ⟨.stay p, rfl⟩
  | .move, p => ⟨.one (.move p) le_rfl, rfl⟩
  | .follow x f, p => by
    obtain ⟨first, level⟩ := x.balanced p
    rw [Plan.way, Plan.run]
    unfold Parse.outcome at first level ⊢
    cases ran : x.run p with
    | error e q =>
      rw [ran] at first level
      rw [Parse.bind_of_error ran, List.append_nil]
      exact ⟨first, level⟩
    | ok a q =>
      rw [ran] at first level
      have level : q.depth = p.depth := level
      rw [Parse.bind_of_ok ran]
      obtain ⟨second, level'⟩ := (f a).balanced q
      exact ⟨first.behind level.ge second, level'.trans level⟩
  | .level x, p => by
    rw [Plan.way, Plan.run]
    by_cases room : p.depth < p.limit
    · obtain ⟨inside, level⟩ := x.balanced p.deeper
      rw [if_pos room, Parse.outcome_descend room]
      generalize (x.run.outcome p.deeper).2 = q at inside level
      have level : q.depth = p.depth + 1 := level
      have closed : (q.closed 1).depth = p.depth := Nat.sub_eq_of_eq_add level
      have inside : p.deeper.Way p.depth (x.way p.deeper) q := inside.lower (Nat.le_succ _)
      have closing : q.Way p.depth [q.closed 1] (q.closed 1) := .one (.close (by omega)) closed.ge
      exact ⟨.next (.deeper room) (Nat.le_succ _) (inside.append closing), closed⟩
    · unfold Parse.outcome Parse.descend
      rw [if_neg room, if_neg room]
      exact ⟨.stay p, rfl⟩
  | .chain x, p => by
    obtain ⟨inside, counted⟩ := x.counted ⟨p, 0⟩
    rw [Plan.way, Plan.run, Parse.outcome_leftChain]
    generalize x.run.finish ⟨p, 0⟩ = s at inside counted
    have counted : s.parser.depth = p.depth + s.links := counted.2
    have closed : (s.parser.closed s.links).depth = p.depth := Nat.sub_eq_of_eq_add counted
    exact ⟨inside.append (.one (.close (by omega)) closed.ge), closed⟩

/-- A chain counts the levels it opens: it is a way of single steps on which the levels that were open stay
open, and at its end as many more are open as there are more links. -/
theorem ChainPlan.counted {α : Type} : (x : ChainPlan α) → (s : Linked) →
    s.parser.Way s.parser.depth (x.way s) (x.run.finish s).parser ∧
      s.links ≤ (x.run.finish s).links ∧
        (x.run.finish s).parser.depth + s.links = s.parser.depth + (x.run.finish s).links
  | .lift x, s => by
    obtain ⟨way, level⟩ := x.balanced s.parser
    rw [ChainPlan.way, ChainPlan.run, Chain.finish_lift]
    exact ⟨way, le_rfl, congrArg (· + s.links) level⟩
  | .link, s => by
    rw [ChainPlan.way, ChainPlan.run]
    unfold Chain.finish Chain.addLink
    by_cases room : s.parser.depth < s.parser.limit
    · rw [if_pos room, if_pos room]
      exact ⟨.one (.deeper room) (Nat.le_succ _), Nat.le_succ _, by dsimp only; omega⟩
    · rw [if_neg room, if_neg room]
      exact ⟨.stay _, le_rfl, rfl⟩
  | .follow x f, s => by
    obtain ⟨first, more, counted⟩ := x.counted s
    rw [ChainPlan.way, ChainPlan.run]
    unfold Chain.finish at first more counted ⊢
    cases ran : x.run s with
    | error e s' =>
      rw [ran] at first more counted
      rw [Chain.bind_of_error ran, List.append_nil]
      exact ⟨first, more, counted⟩
    | ok a s' =>
      rw [ran] at first more counted
      rw [Chain.bind_of_ok ran]
      obtain ⟨second, more', counted'⟩ := (f a).counted s'
      unfold Chain.finish at second more' counted'
      dsimp only at first more counted
      refine ⟨first.behind (by omega) second, more.trans more', by omega⟩

end

end CanonicalSql
