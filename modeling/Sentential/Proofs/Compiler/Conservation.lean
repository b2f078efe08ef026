import Sentential.Proofs.Compiler.Run
/-!
# What compiling keeps

Every instruction that the tokens ask for is at any time in one place: it has been emitted, or its
connective waits.  At the end nothing waits, so the program has the instructions of the tokens, each
as often as they ask for it.  Connectives may change places; the pushes stay in the order of the
tokens.
-/

namespace Sentential

/-- The instruction that a symbol asks for.  Parentheses and unknown tokens ask for none. -/
def Symbol.instruction? : Symbol → Option Instruction
  | .atom name => some (.push name)
  | .connective c => some (.apply c)
  | _ => none

/-- The instruction that is held back on the waiting stack. -/
def Waiting.instruction? : Waiting → Option Instruction
  | .connective c => some (.apply c)
  | .opening => none

namespace Compiler

/-- The instructions asked for so far: those emitted, then those held back. -/
def held (σ : Compiler) : Program := σ.emitted ++ σ.waiting.filterMap Waiting.instruction?

@[simp] theorem filterMap_instruction?_pending (cs : List Connective) :
    (pending cs).filterMap Waiting.instruction? = released cs := by
  induction cs with
  | nil => rfl
  | cons c cs ih => exact congrArg (.apply c :: ·) ih

@[simp] theorem filterMap_instruction?_opening_cons (rest : List Waiting) :
    (Waiting.opening :: rest).filterMap Waiting.instruction? =
      rest.filterMap Waiting.instruction? := rfl

variable {σ σ' : Compiler} {s : Symbol} {ss : List Symbol}

/-- A token adds the instruction that it asks for and moves others at most. -/
theorem Transition.held_perm (h : Transition σ s σ') :
    σ'.held.Perm (σ.held ++ s.instruction?.toList) := by
  cases h with
  | atom waiting emitted seen name =>
      simp only [held, List.append_assoc]
      exact List.perm_append_comm.append_left emitted
  | connective c cs kept emitted seen _ =>
      simp only [held, List.filterMap_append, filterMap_instruction?_pending, List.append_assoc]
      refine List.Perm.append_left emitted (List.Perm.append_left (released cs) ?_)
      exact (List.perm_append_singleton (Instruction.apply c) _).symm
  | opening waiting emitted seen => simp [held, Symbol.instruction?]
  | closing cs rest emitted seen => simp [held, Symbol.instruction?]

theorem held_perm_of_run (h : run {} ss = (σ, none)) :
    σ.held.Perm (ss.filterMap Symbol.instruction?) := by
  refine run_induction (motive := fun τ ss => τ.held.Perm (ss.filterMap Symbol.instruction?))
    (List.Perm.refl _) ?_ h
  intro τ τ' ss s hτ htrans
  have hlast : [s].filterMap Symbol.instruction? = s.instruction?.toList := by
    cases s <;> rfl
  rw [List.filterMap_append, hlast]
  exact htrans.held_perm.trans (hτ.append_right _)

theorem held_of_finish {p : Program} (h : σ.finish = .ok p) : σ.held = p := by
  obtain ⟨cs, hwaiting, rfl⟩ := exists_pending_of_finish h
  rw [held, hwaiting, filterMap_instruction?_pending]

end Compiler

namespace Alphabet

open Compiler

/-- The instruction that a token asks for: an atom is pushed and a glyph is applied. -/
def instruction? (a : Alphabet) (token : String) : Option Instruction :=
  if token ∈ a.atoms then some (.push token) else (Connective.ofText? token).map .apply

theorem instruction?_symbol (a : Alphabet) (token : String) :
    (a.symbol token).instruction? = a.instruction? token := by
  rw [instruction?]
  rcases a.symbol_cases token with ⟨hmem, hs⟩ | ⟨hmem, c, rfl, hs⟩ | ⟨hmem, rfl, hs⟩ |
    ⟨hmem, rfl, hs⟩ | ⟨hmem, htext, _, _, hs⟩
  · rw [hs, if_pos hmem]
    rfl
  · rw [hs, if_neg hmem, c.ofText?_text]
    rfl
  · rw [hs, if_neg hmem]
    rfl
  · rw [hs, if_neg hmem]
    rfl
  · rw [hs, if_neg hmem, Connective.ofText?_eq_none_iff.2 htext]
    rfl

theorem filterMap_instruction?_symbol (a : Alphabet) (ts : List String) :
    (ts.map a.symbol).filterMap Symbol.instruction? = ts.filterMap a.instruction? := by
  rw [List.filterMap_map]
  congr 1
  funext token
  exact a.instruction?_symbol token

/-- Whatever compiles keeps the instructions of its tokens: none is lost or added, the pushes are in
the order of the atoms, and the atoms of the compilation are the distinct names in the order of
their first push. -/
theorem compile_conserves {a : Alphabet} {source : Source} {p : Program}
    (h : (a.compile source).outcome = .ok p) :
    p.Perm ((a.tokens source).filterMap a.instruction?) ∧
      p.pushed = (a.tokens source).filter a.isAtom ∧
      (a.compile source).atoms = p.pushed.eraseDups := by
  obtain ⟨σ, hrun, hfinish, _⟩ := exists_run_of_outcome h
  refine ⟨?_, pushed_of_outcome h, atoms_of_outcome h⟩
  rw [← held_of_finish hfinish, ← filterMap_instruction?_symbol]
  exact held_perm_of_run hrun

/-- Connectives without operands are kept too, and an atom that occurs twice is pushed twice. -/
theorem compile_conserves_dangling :
    (builder.compile (.tokens ["Q", "→", "P", "∨", "(", "Q", "¬", ")"])).outcome =
        .ok [.push "Q", .push "P", .push "Q", .apply .not, .apply (.binary .or),
          .apply (.binary .implies)] ∧
      ([.push "Q", .push "P", .push "Q", .apply .not, .apply (.binary .or),
          .apply (.binary .implies)] : Program).Perm
        [.push "Q", .apply (.binary .implies), .push "P", .apply (.binary .or), .push "Q",
          .apply .not] ∧
      (builder.compile (.tokens ["Q", "→", "P", "∨", "(", "Q", "¬", ")"])).atoms = ["Q", "P"] := by
  have houtcome : (builder.compile (.tokens ["Q", "→", "P", "∨", "(", "Q", "¬", ")"])).outcome =
      .ok [.push "Q", .push "P", .push "Q", .apply .not, .apply (.binary .or),
        .apply (.binary .implies)] := rfl
  obtain ⟨hperm, _, hatoms⟩ := compile_conserves houtcome
  exact ⟨houtcome, hperm, hatoms⟩

end Alphabet

end Sentential
