import MethodMarkers.Text.Blank

namespace MethodMarkers.Text

variable {c : Char} {cs blanks : List Char}

structure Trimmed (cs : List Char) : Prop where
  head : ∀ c, cs.head? = some c → isBlank c = false
  last : ∀ c, cs.getLast? = some c → isBlank c = false

theorem dropBlanks_head (h : (dropBlanks cs).head? = some c) : isBlank c = false := by
  have hnot := List.head?_dropWhile_not isBlank cs
  rw [← dropBlanks, h] at hnot
  exact hnot

theorem dropBlanks_eq_self (h : ∀ c, cs.head? = some c → isBlank c = false) :
    dropBlanks cs = cs := by
  cases cs with
  | nil => rfl
  | cons c cs =>
    rw [dropBlanks, List.dropWhile_cons_of_neg]
    exact Bool.not_eq_true _ ▸ h c rfl

theorem trimmed_trim (cs : List Char) : Trimmed (trim cs) where
  head c h := by
    have hprefix : trim cs <+: dropBlanks cs := by
      have hsuffix :=
        List.reverse_prefix.2 (List.dropWhile_suffix isBlank (l := (dropBlanks cs).reverse))
      rwa [List.reverse_reverse] at hsuffix
    obtain ⟨more, hmore⟩ := hprefix
    refine @dropBlanks_head c cs ?_
    rw [← hmore, List.head?_append, h]
    rfl
  last c h := by
    rw [trim, dropBlanksEnd, List.getLast?_reverse] at h
    exact dropBlanks_head h

namespace Trimmed

theorem of_notBlank (h : ∀ c ∈ cs, isBlank c = false) : Trimmed cs where
  head c hc := h c (List.mem_of_head? hc)
  last c hc := h c (List.mem_of_getLast? hc)

theorem trim_append (h : Trimmed cs) (hn : cs ≠ []) (hb : ∀ c ∈ blanks, isBlank c = true) :
    trim (cs ++ blanks) = cs := by
  have hfront : dropBlanks (cs ++ blanks) = cs ++ blanks := by
    obtain ⟨first, more, rfl⟩ := List.exists_cons_of_ne_nil hn
    exact dropBlanks_eq_self h.head
  have hback : dropBlanks (blanks.reverse ++ cs.reverse) = cs.reverse := by
    rw [dropBlanks, List.dropWhile_append_of_pos fun c hc => hb c (List.mem_reverse.1 hc)]
    exact dropBlanks_eq_self fun c hc => h.last c (List.head?_reverse ▸ hc)
  rw [trim, hfront, dropBlanksEnd, List.reverse_append, hback, List.reverse_reverse]

theorem trim_eq (h : Trimmed cs) : trim cs = cs := by
  cases cs with
  | nil => rfl
  | cons c cs =>
    have htrim := h.trim_append (List.cons_ne_nil c cs) (List.forall_mem_nil _)
    rwa [List.append_nil] at htrim

end Trimmed

end MethodMarkers.Text
