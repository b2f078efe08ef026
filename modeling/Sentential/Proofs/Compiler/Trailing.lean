import Sentential.Proofs.Compiler.Group
import Sentential.Proofs.Compiler.Precedence
import Sentential.Proofs.FormulaGraph.Replay
/-!
# A connective behind a formula

A formula with a binary connective behind it compiles, although the right operand of the connective
is missing.  Looser connectives of the formula wait while the trailing one is read, and each of them
has its left operand on the machine's stack.  When they are applied, every connective takes its
right operand from the one before it, and then the nearest operand below, which is the left operand
of the next looser connective.  So each takes an operand that was written for another, and it is the
left operand of the loosest connective that is missing in the end.
-/

namespace Sentential

/-- The stratum whose formulas the connective joins. -/
def BinaryConnective.stratum : BinaryConnective → Stratum
  | .and => .conjunction
  | .or => .disjunction
  | .implies => .conditional
  | .iff => .conditional

/-- A binary formula without its right operand. -/
structure LeftHalf where
  left : Formula
  connective : BinaryConnective

namespace LeftHalf

/-- The formula that closes open halves, the innermost of them first. -/
def close : List LeftHalf → Formula → Formula
  | [], f => f
  | h :: halves, f => close halves (.binary h.connective h.left f)

/-- The value of a connective that is applied to one operand on top of open halves, the innermost of
them first.  It takes the left operand of the next half, whose connective goes on with the
result. -/
def collapse (v : Valuation) : BinaryConnective → Bool → List LeftHalf → Bool
  | c, right, [] => (Connective.binary c).apply none (some right)
  | c, right, h :: halves => collapse v h.connective (c.holds (h.left.holds v) right) halves

theorem close_concat (f : Formula) (halves : List LeftHalf) (h : LeftHalf) :
    close (halves ++ [h]) f = .binary h.connective h.left (close halves f) := by
  induction halves generalizing f with
  | nil => rfl
  | cons h' halves ih => exact ih _

theorem exists_collapse_concat (v : Valuation) (c : BinaryConnective) (right : Bool)
    (halves : List LeftHalf) (h : LeftHalf) :
    ∃ b, collapse v c right (halves ++ [h]) =
      (Connective.binary h.connective).apply none (some b) := by
  induction halves generalizing c right with
  | nil => exact ⟨_, rfl⟩
  | cons h' halves ih => exact ih _ _

/-- The connectives of open halves, applied to the values of their left operands, collapse. -/
theorem run_released (v : Valuation) (c : BinaryConnective) (right : Bool)
    (halves : List LeftHalf) :
    Machine.run v (right :: halves.map fun h => h.left.holds v)
        (Compiler.released (.binary c :: halves.map fun h => .binary h.connective)) =
      [collapse v c right halves] := by
  induction halves generalizing c right with
  | nil => rfl
  | cons h halves ih =>
      calc
        _ = Machine.run v
            ((Connective.binary c).apply (some (h.left.holds v)) (some right) ::
              halves.map fun h => h.left.holds v)
            (Compiler.released (.binary h.connective ::
              halves.map fun h => .binary h.connective)) := rfl
        _ = _ := by rw [Connective.apply_binary_some, ih, collapse]

end LeftHalf

theorem Program.run_unreplayed (v : Valuation) (fs : List Formula) :
    Machine.run v [] (unreplayed fs) = fs.map (Formula.holds v) := by
  induction fs with
  | nil => rfl
  | cons f fs ih => rw [unreplayed, Machine.run_append, ih, f.run_postorder, List.map_cons]

namespace Alphabet

open Compiler

/-- Tokens that end behind a connective, with the halves that they leave open: the innermost first,
each looser than the one before it, and all looser than the given precedence. -/
inductive Opens (a : Alphabet) : Nat → List String → List LeftHalf → Prop
  | nil (level : Nat) : Opens a level [] []
  | snoc {level : Nat} {before ts : List String} {halves : List LeftHalf} {f : Formula}
      {c : BinaryConnective} : Opens a (Connective.binary c).precedence before halves →
      a.Derives c.stratum ts f → (Connective.binary c).precedence < level →
      Opens a level (before ++ (ts ++ [(Connective.binary c).text])) (⟨f, c⟩ :: halves)

/-- The value of a list of tokens.  Tokens that do not compile are false. -/
def value (a : Alphabet) (ts : List String) (v : Valuation) : Bool :=
  (a.compile (.tokens ts)).program.evaluate v

/-! ## Derivations -/

theorem precedence_stratum (c : BinaryConnective) :
    c.stratum.precedence = (Connective.binary c).precedence := by
  cases c <;> rfl

variable {a : Alphabet} {before ts : List String} {f g : Formula} {level : Nat}
  {halves : List LeftHalf} {c : BinaryConnective}

theorem Derives.of_le {outer inner : Stratum} (hle : outer.precedence ≤ inner.precedence)
    (h : a.Derives inner ts f) : a.Derives outer ts f := by
  cases inner with
  | conditional =>
      cases outer with
      | conditional => exact h
      | disjunction => exact absurd hle (by decide)
      | conjunction => exact absurd hle (by decide)
      | literal => exact absurd hle (by decide)
  | disjunction =>
      cases outer with
      | conditional => exact h.ofDisjunction
      | disjunction => exact h
      | conjunction => exact absurd hle (by decide)
      | literal => exact absurd hle (by decide)
  | conjunction =>
      cases outer with
      | conditional => exact h.ofConjunction.ofDisjunction
      | disjunction => exact h.ofConjunction
      | conjunction => exact h
      | literal => exact absurd hle (by decide)
  | literal =>
      cases outer with
      | conditional => exact h.ofLiteral.ofConjunction.ofDisjunction
      | disjunction => exact h.ofLiteral.ofConjunction
      | conjunction => exact h.ofLiteral
      | literal => exact h

theorem Derives.binary {ss : List String} {inner : Stratum} (hf : a.Derives c.stratum ss f)
    (hg : a.Derives inner ts g) (hlt : (Connective.binary c).precedence < inner.precedence) :
    a.Derives c.stratum (ss ++ (Connective.binary c).text :: ts) (.binary c f g) := by
  cases c with
  | and => exact .and hf (hg.of_le hlt)
  | or => exact .or hf (hg.of_le hlt)
  | implies => exact .implies hf (hg.of_le hlt)
  | iff => exact .iff hf (hg.of_le hlt)

/-! ## Open halves -/

namespace Opens

theorem mono {level' : Nat} (h : a.Opens level ts halves) (hle : level ≤ level') :
    a.Opens level' ts halves := by
  cases h with
  | nil => exact .nil level'
  | snoc hbefore hf hlt => exact .snoc hbefore hf (Nat.lt_of_lt_of_le hlt hle)

/-- The halves are closed by a formula that binds at least as tightly as they ask for. -/
theorem derives {s : Stratum} (h : a.Opens level before halves) (hle : level ≤ s.precedence)
    (hf : a.Derives s ts f) : a.Derives .conditional (before ++ ts) (LeftHalf.close halves f) := by
  induction h generalizing s ts f with
  | nil level =>
      have hone : Stratum.conditional.precedence ≤ s.precedence := by
        cases s <;> decide
      exact hf.of_le hone
  | snoc _ hleft hlt ih =>
      have hbinary := hleft.binary hf (Nat.lt_of_lt_of_le hlt hle)
      have hclosed := ih (Nat.le_of_eq (precedence_stratum _).symm) hbinary
      simpa [LeftHalf.close] using hclosed

/-- The compiler has emitted the left operands, and the connectives wait. -/
theorem run (ha : a.IsPlain) (h : a.Opens level ts halves) :
    ∃ seen, Compiler.run {} (ts.map a.symbol) =
        (⟨pending (halves.map fun h => .binary h.connective),
          Program.unreplayed (halves.map LeftHalf.left), seen⟩, none) ∧
      Firm level (pending (halves.map fun h => .binary h.connective)) := by
  induction h with
  | nil level => exact ⟨[], rfl, firm_nil level⟩
  | @snoc level before ts halves f c _ hf hlt ih =>
      obtain ⟨seen, hrun, hfirm⟩ := ih
      have hreads := hf.reads ha
      rw [precedence_stratum] at hreads
      obtain ⟨seen', hconnective⟩ := hreads.run_append_connective c hfirm
        (Program.unreplayed (halves.map LeftHalf.left)) seen []
      refine ⟨seen', ?_, firm_connective hlt _⟩
      rw [List.map_append, List.map_append, List.map_singleton, symbol_text ha,
        run_append_of_ok hrun, hconnective, Compiler.run_nil]
      rfl

theorem outcome_eq (ha : a.IsPlain) (h : a.Opens level ts halves) :
    (a.compile (.tokens ts)).outcome =
      .ok (Program.unreplayed (halves.map LeftHalf.left) ++
        released (halves.map fun h => .binary h.connective)) := by
  obtain ⟨seen, hrun, _⟩ := h.run ha
  rw [outcome_compile, outcomeFrom, hrun]
  simp only [Compiler.finish, releaseAll_pending]

theorem value_eq (ha : a.IsPlain) (h : a.Opens level ts (⟨f, c⟩ :: halves)) (v : Valuation) :
    a.value ts v = LeftHalf.collapse v c (f.holds v) halves := by
  have hvalues : ((⟨f, c⟩ :: halves : List LeftHalf).map LeftHalf.left).map (Formula.holds v) =
      f.holds v :: halves.map fun h => h.left.holds v := by
    simp
  rw [value, Compilation.program_of_outcome (h.outcome_eq ha), Program.evaluate,
    Machine.run_append, Program.run_unreplayed, hvalues, List.map_cons, LeftHalf.run_released]
  rfl

end Opens

theorem value_of_derives (ha : a.IsPlain) (h : a.Derives .conditional ts f) (v : Valuation) :
    a.value ts v = f.holds v := by
  rw [value, Compilation.program_of_outcome (outcome_of_derives ha h), f.evaluate_postorder]

/-! ## The trailing connective -/

/-- Behind the tokens, at any place where the halves that are open are looser than the given
precedence, the connective opens a half.  What else is open then is closed to the formula by the
tokens between. -/
def OpensBehind (a : Alphabet) (level : Nat) (c : BinaryConnective) (ts : List String)
    (f : Formula) : Prop :=
  ∀ before halves, a.Opens level before halves →
    ∃ last inner, LeftHalf.close inner last = f ∧
      a.Opens ((Connective.binary c).precedence + 1)
        (before ++ (ts ++ [(Connective.binary c).text])) (⟨last, c⟩ :: (inner ++ halves))

namespace OpensBehind

theorem mono {level' : Nat} (hle : level ≤ level') (h : a.OpensBehind level' c ts f) :
    a.OpensBehind level c ts f :=
  fun before halves hbefore => h before halves (hbefore.mono hle)

/-- A formula of the connective's own stratum is its left operand as a whole. -/
theorem own (h : a.Derives c.stratum ts f) :
    a.OpensBehind (Connective.binary c).precedence c ts f :=
  fun _ _ hbefore => ⟨f, [], rfl, .snoc hbefore h (Nat.lt_succ_self _)⟩

theorem binary {ss : List String} {d : BinaryConnective} (hf : a.Derives d.stratum ss f)
    (hg : a.OpensBehind ((Connective.binary d).precedence + 1) c ts g) :
    a.OpensBehind (Connective.binary d).precedence c (ss ++ (Connective.binary d).text :: ts)
      (.binary d f g) := by
  intro before halves hbefore
  obtain ⟨last, inner, rfl, hopens⟩ := hg _ _ (.snoc hbefore hf (Nat.lt_succ_self _))
  refine ⟨last, inner ++ [⟨f, d⟩], LeftHalf.close_concat last inner ⟨f, d⟩, ?_⟩
  simpa using hopens

end OpensBehind

/-- A connective opens a half behind every formula that it does not bind looser than. -/
theorem Derives.opensBehind {s : Stratum} (h : a.Derives s ts f)
    (hle : s.precedence ≤ (Connective.binary c).precedence) :
    a.OpensBehind s.precedence c ts f := by
  have hown : ∀ {s : Stratum} {ts : List String} {f : Formula}, a.Derives s ts f →
      s.precedence = (Connective.binary c).precedence → a.OpensBehind s.precedence c ts f := by
    intro s ts f h heq
    rw [heq]
    exact .own (h.of_le (Nat.le_of_eq ((precedence_stratum c).trans heq.symm)))
  have hliteral : ¬ Stratum.literal.precedence ≤ (Connective.binary c).precedence := by
    cases c <;> decide
  induction h with
  | ofDisjunction h ih =>
      rcases Nat.eq_or_lt_of_le hle with heq | hlt
      · exact hown h.ofDisjunction heq
      · exact (ih hlt).mono (by decide)
  | implies hf hg _ ihg =>
      rcases Nat.eq_or_lt_of_le hle with heq | hlt
      · exact hown (.implies hf hg) heq
      · exact .binary (d := .implies) hf (ihg hlt)
  | iff hf hg _ ihg =>
      rcases Nat.eq_or_lt_of_le hle with heq | hlt
      · exact hown (.iff hf hg) heq
      · exact .binary (d := .iff) hf (ihg hlt)
  | ofConjunction h ih =>
      rcases Nat.eq_or_lt_of_le hle with heq | hlt
      · exact hown h.ofConjunction heq
      · exact (ih hlt).mono (by decide)
  | or hf hg _ ihg =>
      rcases Nat.eq_or_lt_of_le hle with heq | hlt
      · exact hown (.or hf hg) heq
      · exact .binary (d := .or) hf (ihg hlt)
  | ofLiteral h _ => exact hown h.ofLiteral (Nat.le_antisymm hle (by cases c <;> decide))
  | and hf hg _ _ => exact hown (.and hf hg) (Nat.le_antisymm hle (by cases c <;> decide))
  | atom _ => exact absurd hle hliteral
  | not _ _ => exact absurd hle hliteral
  | group _ _ => exact absurd hle hliteral

/-- A connective may stand behind every formula. -/
theorem Derives.exists_opens (h : a.Derives .conditional ts f) (c : BinaryConnective) :
    ∃ last inner, LeftHalf.close inner last = f ∧
      a.Opens ((Connective.binary c).precedence + 1) (ts ++ [(Connective.binary c).text])
        (⟨last, c⟩ :: inner) := by
  have hlowest : Stratum.conditional.precedence ≤ (Connective.binary c).precedence := by
    cases c <;> decide
  obtain ⟨last, inner, hclose, hopens⟩ := h.opensBehind hlowest [] [] (.nil _)
  rw [List.nil_append, List.append_nil] at hopens
  exact ⟨last, inner, hclose, hopens⟩

theorem precedence_succ_le_literal (c : BinaryConnective) :
    (Connective.binary c).precedence + 1 ≤ Stratum.literal.precedence := by
  cases c <;> decide

/-! ## Its value -/

section

variable (ha : a.IsPlain) (v : Valuation)

include ha

/-- An atom behind open halves closes them. -/
theorem Opens.value_concat_atom (h : a.Opens level ts halves)
    (hle : level ≤ Stratum.literal.precedence) {name : String} (hname : name ∈ a.atoms) :
    a.value (ts ++ [name]) v = (LeftHalf.close halves (.atom name)).holds v :=
  value_of_derives ha (h.derives hle (.atom hname)) v

/-- A trailing connective compiles, and so it does with its operand. -/
theorem exists_outcome_trailing (h : a.Derives .conditional ts f) (c : BinaryConnective)
    {name : String} (hname : name ∈ a.atoms) :
    (∃ p, (a.compile (.tokens (ts ++ [(Connective.binary c).text]))).outcome = .ok p) ∧
      ∃ q, (a.compile (.tokens (ts ++ [(Connective.binary c).text] ++ [name]))).outcome =
        .ok q := by
  obtain ⟨last, inner, -, hopens⟩ := h.exists_opens c
  have hderives := hopens.derives (precedence_succ_le_literal c) (.atom hname)
  exact ⟨⟨_, hopens.outcome_eq ha⟩, ⟨_, outcome_of_derives ha hderives⟩⟩

/-- A connective behind a formula of its own stratum takes the value of the formula as its right
operand. -/
theorem value_trailing_own (h : a.Derives c.stratum ts f) :
    a.value (ts ++ [(Connective.binary c).text]) v =
      (Connective.binary c).apply none (some (f.holds v)) :=
  (Opens.snoc (.nil _) h (Nat.lt_succ_self _)).value_eq ha v

theorem value_operand (h : a.Derives c.stratum ts f) {name : String} (hname : name ∈ a.atoms) :
    a.value (ts ++ [(Connective.binary c).text, name]) v = c.holds (f.holds v) (v name) := by
  have hopens := Opens.snoc (.nil _) h (Nat.lt_succ_self _)
  simpa [LeftHalf.close, Formula.holds] using
    hopens.value_concat_atom ha v (precedence_succ_le_literal c) hname

/-- Behind a looser connective that nothing looser precedes, the missing operand is the left one of
that connective. -/
theorem exists_value_trailing_behind {ss : List String} {d : BinaryConnective} {s : Stratum}
    (hf : a.Derives d.stratum ss f) (hg : a.Derives s ts g)
    (hd : (Connective.binary d).precedence < s.precedence)
    (hc : s.precedence ≤ (Connective.binary c).precedence) :
    ∃ b, a.value (ss ++ (Connective.binary d).text :: ts ++ [(Connective.binary c).text]) v =
      (Connective.binary d).apply none (some b) := by
  obtain ⟨last, inner, -, hopens⟩ := hg.opensBehind hc _ _ (.snoc (.nil _) hf hd)
  obtain ⟨b, hb⟩ := LeftHalf.exists_collapse_concat v c (last.holds v) inner ⟨f, d⟩
  refine ⟨b, ?_⟩
  rw [← hb, ← hopens.value_eq ha]
  simp

end

/-- What a connective without its right operand computes behind a formula.  A conjunction and a
disjunction read false in its place, as long as no looser connective stands before them outside of
groups.  A conditional is true, since what is missing in the end is its left operand.  A conjunction
behind a disjunction takes the operand before it, and behind a conditional or a biconditional the
left operand of that is missing. -/
theorem value_trailing {a : Alphabet} (ha : a.IsPlain) {name : String} (hname : name ∈ a.atoms)
    {v : Valuation} (hv : v name = false) :
    (∀ ts f (c : BinaryConnective), a.Derives .conditional ts f →
      (∃ p, (a.compile (.tokens (ts ++ [(Connective.binary c).text]))).outcome = .ok p) ∧
        ∃ q, (a.compile (.tokens (ts ++ [(Connective.binary c).text] ++ [name]))).outcome =
          .ok q) ∧
    (∀ ts f, a.Derives .conjunction ts f →
      a.value (ts ++ ["∧"]) v = a.value (ts ++ ["∧", name]) v) ∧
    (∀ ts f, a.Derives .disjunction ts f →
      a.value (ts ++ ["∨"]) v = a.value (ts ++ ["∨", name]) v) ∧
    (∀ ts f, a.Derives .conditional ts f →
      a.value (ts ++ ["→"]) v = true ∧ a.value (ts ++ ["→", name]) v = !f.holds v) ∧
    (∀ ss f ts g, a.Derives .disjunction ss f → a.Derives .conjunction ts g →
      a.value (ss ++ "∨" :: ts ++ ["∧"]) v = (f.holds v && g.holds v) ∧
        a.value (ss ++ "∨" :: ts ++ ["∧", name]) v = f.holds v) ∧
    (∀ ss f ts g, a.Derives .conditional ss f → a.Derives .disjunction ts g →
      ∀ c ∈ [BinaryConnective.and, .or],
        a.value (ss ++ "→" :: ts ++ [(Connective.binary c).text]) v = true ∧
          a.value (ss ++ "↔" :: ts ++ [(Connective.binary c).text]) v = false) := by
  refine ⟨fun ts f c h => exists_outcome_trailing ha h c hname, ?_, ?_, ?_, ?_, ?_⟩
  · intro ts f h
    have hmissing : a.value (ts ++ ["∧"]) v = false := value_trailing_own (c := .and) ha v h
    have hoperand : a.value (ts ++ ["∧", name]) v = (f.holds v && v name) :=
      value_operand (c := .and) ha v h hname
    rw [hmissing, hoperand, hv, Bool.and_false]
  · intro ts f h
    have hmissing : a.value (ts ++ ["∨"]) v = f.holds v := value_trailing_own (c := .or) ha v h
    have hoperand : a.value (ts ++ ["∨", name]) v = (f.holds v || v name) :=
      value_operand (c := .or) ha v h hname
    rw [hmissing, hoperand, hv, Bool.or_false]
  · intro ts f h
    have hoperand : a.value (ts ++ ["→", name]) v = (!f.holds v || v name) :=
      value_operand (c := .implies) ha v h hname
    refine ⟨value_trailing_own (c := .implies) ha v h, ?_⟩
    rw [hoperand, hv, Bool.or_false]
  · intro ss f ts g hf hg
    have hopens : a.Opens 4 ([] ++ (ss ++ ["∨"]) ++ (ts ++ ["∧"])) [⟨g, .and⟩, ⟨f, .or⟩] :=
      .snoc (c := .and) (.snoc (c := .or) (.nil 2) hf (by decide)) hg (by decide)
    have hoperand := hopens.value_concat_atom ha v (by decide) hname
    constructor
    · simpa [LeftHalf.collapse, Connective.apply, BinaryConnective.holds]
        using hopens.value_eq ha v
    · simpa [LeftHalf.close, Formula.holds, BinaryConnective.holds, hv] using hoperand
  · intro ss f ts g hf hg c hc
    have hle : Stratum.disjunction.precedence ≤ (Connective.binary c).precedence := by
      revert hc
      cases c <;> decide
    obtain ⟨b, himplies⟩ :=
      exists_value_trailing_behind (d := .implies) ha v hf hg (by decide) hle
    obtain ⟨b', hiff⟩ := exists_value_trailing_behind (d := .iff) ha v hf hg (by decide) hle
    exact ⟨himplies, hiff⟩

/-- With a second operand the disjunction is as true as its left part; without it the conjunction
takes both parts. -/
theorem value_trailing_regrouped :
    "S" ∈ builder.atoms ∧
      builder.Derives .disjunction ["P"] (.atom "P") ∧
      builder.Derives .conjunction ["Q"] (.atom "Q") ∧
      builder.value ["P", "∨", "Q", "∧"] (fun name => name == "P") = false ∧
      builder.value ["P", "∨", "Q", "∧", "S"] (fun name => name == "P") = true ∧
      builder.value ["Q", "∧"] (fun name => name == "P") =
        builder.value ["Q", "∧", "S"] (fun name => name == "P") := by
  have hs : "S" ∈ builder.atoms := by decide
  have hp : builder.Derives .disjunction ["P"] (.atom "P") :=
    (Derives.atom (by decide)).ofLiteral.ofConjunction
  have hq : builder.Derives .conjunction ["Q"] (.atom "Q") := (Derives.atom (by decide)).ofLiteral
  obtain ⟨-, hand, -, -, hor, -⟩ :=
    value_trailing (by decide : builder.IsPlain) hs (v := fun name => name == "P") (by decide)
  obtain ⟨hmissing, hoperand⟩ := hor _ _ _ _ hp hq
  exact ⟨hs, hp, hq, hmissing, hoperand, hand _ _ hq⟩

/-- A trailing connective does not read false as its right operand in general: a conditional behind
a true atom is true. -/
theorem not_value_trailing_eq_false_operand :
    ¬ ∀ (a : Alphabet), a.IsPlain → ∀ (ts : List String) (f : Formula),
      a.Derives .conditional ts f → ∀ name ∈ a.atoms, name ∉ ts →
      ∀ c ∈ [BinaryConnective.and, .or, .implies], ∀ v : Valuation, v name = false →
        a.value (ts ++ [(Connective.binary c).text]) v =
          a.value (ts ++ [(Connective.binary c).text, name]) v := by
  intro h
  have hp : builder.Derives .conditional ["P"] (.atom "P") :=
    (Derives.atom (by decide)).ofLiteral.ofConjunction.ofDisjunction
  have heq := h builder (by decide) ["P"] _ hp "Q" (by decide) (by decide) .implies (by decide)
    (fun name => name == "P") (by decide)
  exact absurd heq (by decide)

end Alphabet

end Sentential
