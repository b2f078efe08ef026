import Sentential.Proofs.Text.Cut
import Sentential.Proofs.Text.Letter
/-!
# Spellings and blanks

A spelling without blanks is read only in parts of a text without blanks, whatever the case of its
letters.  A blank is no word character, and so it bounds a word as the end of the text does.  A text
can therefore be cut on either side of every blank.
-/

namespace Sentential.Text

/-- Neither of two neighbours is a blank. -/
def unspaced (d e : Char) : Prop := isBlank d = false ∧ isBlank e = false

variable {s t u : List Char} {d e : Char}

theorem isBlank_left_of_not_unspaced (he : isBlank e = false) (h : ¬ unspaced d e) :
    isBlank d = true := by
  rw [← Bool.not_eq_false]
  exact fun hd => h ⟨hd, he⟩

theorem isBlank_right_of_not_unspaced (hd : isBlank d = false) (h : ¬ unspaced d e) :
    isBlank e = true := by
  rw [← Bool.not_eq_false]
  exact fun he => h ⟨hd, he⟩

theorem not_unspaced_left (hd : isBlank d = true) : ¬ unspaced d e := by
  simp [unspaced, hd]

theorem not_unspaced_right (he : isBlank e = true) : ¬ unspaced d e := by
  simp [unspaced, he]

theorem apart_unspaced_left (hs : ∀ c ∈ s, isBlank c = true) (t : List Char) :
    Apart unspaced s t :=
  fun _ hd _ _ => not_unspaced_left (hs _ (List.mem_of_mem_getLast? hd))

theorem apart_unspaced_right (s : List Char) (ht : ∀ c ∈ t.head?, isBlank c = true) :
    Apart unspaced s t :=
  fun _ _ e he => not_unspaced_right (ht e he)

namespace Rule

/-- There is no blank in the spelling, and something takes its place. -/
structure IsSolid (r : Rule) : Prop where
  spelling_ne_nil : r.spelling ≠ []
  pieces_ne_nil : r.replacement.pieces ≠ []
  not_blank : ∀ p ∈ r.spelling, isBlank p = false

variable {r : Rule}

instance (r : Rule) : Decidable r.IsSolid :=
  decidable_of_iff
    (r.spelling ≠ [] ∧ r.replacement.pieces ≠ [] ∧ r.spelling.all (!isBlank ·) = true)
    ⟨fun h => ⟨h.1, h.2.1, by simpa using h.2.2⟩,
      fun h => ⟨h.spelling_ne_nil, h.pieces_ne_nil, by simpa using h.not_blank⟩⟩

theorem isBlank_of_same {p c : Char} (h : r.same p c = true) : isBlank p = isBlank c := by
  unfold same at h
  split at h
  · exact isBlank_of_sameLetter h
  · rw [beq_iff_eq.1 h]

namespace IsSolid

theorem isBlank_of_reads (hr : r.IsSolid) (hreads : r.Reads u) : ∀ c ∈ u, isBlank c = false := by
  intro c hc
  obtain ⟨p, hp, hsame⟩ := hreads.exists_same hc
  rw [← isBlank_of_same hsame, hr.not_blank p hp]

theorem within (hr : r.IsSolid) : r.Within unspaced := by
  constructor
  case chain =>
    intro u hreads
    have hsolid := hr.isBlank_of_reads hreads
    have hpairwise : u.Pairwise unspaced :=
      List.pairwise_of_forall_mem_list fun d hd e he => ⟨hsolid d hd, hsolid e he⟩
    exact hpairwise.isChain
  case outside_left =>
    intro _ u hreads e he d hd
    have hsolid := hr.isBlank_of_reads hreads e (List.mem_of_mem_head? he)
    exact isWord_of_isBlank (isBlank_left_of_not_unspaced hsolid hd)
  case outside_right =>
    intro _ u hreads d hd e he
    have hsolid := hr.isBlank_of_reads hreads d (List.mem_of_mem_getLast? hd)
    exact isWord_of_isBlank (isBlank_right_of_not_unspaced hsolid he)
  case written_ne_nil =>
    intro u hreads
    exact Template.fill_ne_nil hr.pieces_ne_nil (hreads.ne_nil hr.spelling_ne_nil)
  case apart_left =>
    intro u hreads s hcut d hd g _
    have hfirst := List.head?_eq_some_head (hreads.ne_nil hr.spelling_ne_nil)
    have hsolid := hr.isBlank_of_reads hreads _ (List.mem_of_mem_head? hfirst)
    exact not_unspaced_left (isBlank_left_of_not_unspaced hsolid (hcut d hd _ hfirst))
  case apart_right =>
    intro u hreads t hcut g _ e he
    have hlast := List.getLast?_eq_some_getLast (hreads.ne_nil hr.spelling_ne_nil)
    have hsolid := hr.isBlank_of_reads hreads _ (List.mem_of_mem_getLast? hlast)
    exact not_unspaced_right (isBlank_right_of_not_unspaced hsolid (hcut _ hlast e he))

theorem apply_blanks (hr : r.IsSolid) (hs : ∀ c ∈ s, isBlank c = true) : r.apply s = s := by
  apply apply_of_forall_not_same
  intro p hp c hc
  rw [← Bool.not_eq_true]
  intro hsame
  have hsolid := hr.not_blank p (List.mem_of_mem_head? hp)
  rw [isBlank_of_same hsame, hs c hc] at hsolid
  cases hsolid

end IsSolid

end Rule

end Sentential.Text
