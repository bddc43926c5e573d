import VmFleet.Proofs.Sql.Extents

/-!
# Where a token ends

A comma or a closing parenthesis belongs to no token but its own. Put after a text, it changes
nothing about the first token of the text, unless a quote is open there.
-/

set_option autoImplicit false

namespace VmFleet.Sql

section Stop

variable (s : Char) (hs : s = ',' ∨ s = ')') (rest : List Char)
include hs

theorem fraction_append (cs : List Char) :
    fraction (cs ++ s :: rest) = ((fraction cs).1, (fraction cs).2 ++ s :: rest) := by
  have hsep : isDigitOrSeparator s = false := by rcases hs with rfl | rfl <;> rfl
  match cs with
  | [] => rcases hs with rfl | rfl <;> rfl
  | c :: cs =>
    by_cases hc : c = '.'
    · subst hc
      simp [fraction, cut_append _ cs rest s (Or.inl hsep)]
    · simp [fraction, hc]

theorem exponent_append (cs : List Char) :
    exponent (cs ++ s :: rest) = ((exponent cs).1, (exponent cs).2 ++ s :: rest) := by
  have hsep : isDigitOrSeparator s = false := by rcases hs with rfl | rfl <;> rfl
  have hdigit : s.isDigit = false := by rcases hs with rfl | rfl <;> rfl
  match cs with
  | [] => rcases hs with rfl | rfl <;> rcases rest with _ | ⟨a, _ | ⟨b, t⟩⟩ <;> rfl
  | [e] => rcases hs with rfl | rfl <;> rcases rest with _ | ⟨a, t⟩ <;> simp [exponent]
  | [e, d] =>
    have hd (h : d.isDigit = true) :
        cut isDigitOrSeparator (d :: s :: rest) = ([d], s :: rest) := by
      have hcut := cut_append _ [d] rest s (Or.inl hsep)
      simpa [cut, isDigitOrSeparator, h] using hcut
    simp only [exponent, List.cons_append, List.nil_append, hdigit]
    by_cases he : e = 'e' ∨ e = 'E'
    · cases h : d.isDigit
      · rcases he with rfl | rfl <;> simp
      · rcases he with rfl | rfl <;> simp [hd h]
    · simp_all
  | e :: t :: d :: cs =>
    have hlong := cut_append isDigitOrSeparator (t :: d :: cs) rest s (Or.inl hsep)
    have hshort := cut_append isDigitOrSeparator (d :: cs) rest s (Or.inl hsep)
    simp only [List.cons_append] at hlong hshort
    simp only [exponent, List.cons_append, hlong, hshort]
    repeat' split
    all_goals rfl

theorem decimal_append (cs : List Char) :
    digits.decimal (cs ++ s :: rest) =
      ((digits.decimal cs).1, (digits.decimal cs).2 ++ s :: rest) := by
  have hsep : isDigitOrSeparator s = false := by rcases hs with rfl | rfl <;> rfl
  simp only [digits.decimal, cut_append _ cs rest s (Or.inl hsep), fraction_append s hs,
    exponent_append s hs]

omit hs in
theorem digits_decimal (c x d : Char) (cs : List Char)
    (h : c = '0' → (x = 'x' ∨ x = 'X') → isHexDigit d = false) :
    digits (c :: x :: d :: cs) = digits.decimal (c :: x :: d :: cs) := by
  by_cases hc : c = '0'
  · subst hc
    by_cases hx : x = 'x' ∨ x = 'X'
    · simp [digits, h rfl hx]
    · simp [digits, hx]
  · simp [digits, hc]

theorem digits_append (cs : List Char) :
    digits (cs ++ s :: rest) = ((digits cs).1, (digits cs).2 ++ s :: rest) := by
  have hdec := decimal_append s hs rest
  match cs with
  | [] => rcases hs with rfl | rfl <;> rcases rest with _ | ⟨a, _ | ⟨b, t⟩⟩ <;> rfl
  | [c] =>
    have hone : digits [c] = digits.decimal [c] := by simp [digits]
    rw [hone, ← hdec]
    rcases rest with _ | ⟨a, t⟩
    · simp [digits]
    · exact digits_decimal c s a t (by rcases hs with rfl | rfl <;> simp)
  | [c, x] =>
    have htwo : digits [c, x] = digits.decimal [c, x] := by simp [digits]
    rw [htwo, ← hdec]
    exact digits_decimal c x s rest fun _ _ => by rcases hs with rfl | rfl <;> rfl
  | c :: x :: d :: cs =>
    by_cases h : c = '0' ∧ (x = 'x' ∨ x = 'X') ∧ isHexDigit d = true
    · obtain ⟨rfl, hx, hd⟩ := h
      have hcut := cut_append (fun c => isHexDigit c || c = '_') (d :: cs) rest s
        (Or.inl (by rcases hs with rfl | rfl <;> rfl))
      simp only [List.cons_append] at hcut
      simp [digits, hx, hd, hcut]
    · have hnot : c = '0' → (x = 'x' ∨ x = 'X') → isHexDigit d = false := by simp_all
      rw [digits_decimal c x d cs hnot, ← hdec]
      exact digits_decimal c x d _ hnot

theorem numberToken_append (cs : List Char) :
    numberToken (cs ++ s :: rest) =
      ((numberToken cs).1, (numberToken cs).2.1, (numberToken cs).2.2 ++ s :: rest) := by
  have hname : isNameChar s = false := by rcases hs with rfl | rfl <;> rfl
  simp only [numberToken, digits_append s hs, cut_append _ _ rest s (Or.inl hname)]
  split <;> rfl

theorem blobToken_append (x : Char) (cs : List Char) :
    blobToken x (cs ++ s :: rest) =
      ((blobToken x cs).1, (blobToken x cs).2.1, (blobToken x cs).2.2 ++ s :: rest) := by
  have hhex : isHexDigit s = false := by rcases hs with rfl | rfl <;> rfl
  have hquote : s ≠ '\'' := by rcases hs with rfl | rfl <;> decide
  simp only [blobToken, cut_append _ _ rest s (Or.inl hhex)]
  rcases cut isHexDigit cs with ⟨hex, _ | ⟨c, after⟩⟩
  · simp [hquote]
  · by_cases hc : c = '\''
    · simp [hc]
    · simp [hc]

omit hs in
def openers : List Char := ['\'', '"', '`', '[', '?']

omit hs in
/-- The starts of tokens whose kind the second character decides. -/
def pairs : List (Char × Char) :=
  [('x', '\''), ('X', '\''), ('-', '>'), ('=', '='), ('<', '='), ('<', '>'), ('<', '<'), ('>', '='),
   ('>', '>'), ('!', '='), ('|', '|')]

omit hs in
/-- The first character decides what the token is. -/
def Alone (c : Char) (cs : List Char) : Prop :=
  c ∉ openers ∧ ∀ d ∈ cs.head?, c ≠ '.' ∧ (c, d) ∉ pairs

omit hs in
theorem token_alone (c : Char) (cs : List Char) (h : Alone c cs) :
    token (c :: cs) =
      if c.isDigit then numberToken (c :: cs)
      else if startsName c then (.word, (cut isNameChar (c :: cs)).1, (cut isNameChar (c :: cs)).2)
      else if c = '$' || c = '@' || c = ':' || c = '#' then
        (if (cut isNameChar cs).1.isEmpty then .invalid else .parameter,
          c :: (cut isNameChar cs).1, (cut isNameChar cs).2)
      else if "()+-*/;%=<>|,&~.".toList.contains c then (.mark, [c], cs)
      else (.invalid, [c], cs) := by
  obtain ⟨hc, hnext⟩ := h
  rw [token.eq_20]
  case x_18 =>
    rintro d t rfl rfl
    simp at hnext
  all_goals intros; subst_vars; simp [openers, pairs] at hc hnext

omit hs in
theorem not_alone (c : Char) (cs : List Char) (h : ¬Alone c cs) :
    c ∈ openers ∨ ∃ d t, cs = d :: t ∧ (c = '.' ∨ (c, d) ∈ pairs) := by
  refine Decidable.or_iff_not_imp_left.2 fun hc => ?_
  rcases cs with _ | ⟨d, t⟩
  · exact absurd ⟨hc, by simp⟩ h
  · refine ⟨d, t, rfl, Decidable.or_iff_not_imp_left.2 fun hdot => ?_⟩
    exact Decidable.not_not.1 fun hpair => h ⟨hc, by simp [hdot, hpair]⟩

omit hs in
theorem bracket_append (cs : List Char)
    (h : (token ('[' :: cs)).1 ≠ .invalid ∨ (token ('[' :: cs)).2.2 ≠ []) :
    token ('[' :: cs ++ s :: rest) =
      ((token ('[' :: cs)).1, (token ('[' :: cs)).2.1, (token ('[' :: cs)).2.2 ++ s :: rest) := by
  rcases hin : cut (· ≠ ']') cs with ⟨inner, after⟩
  have hafter : after ≠ [] := by
    rintro rfl
    simp only [token, hin] at h
    simp at h
  have hcut := cut_append (· ≠ ']') cs rest s (Or.inr (by rw [hin]; exact hafter))
  obtain ⟨d, t, rfl⟩ := List.exists_cons_of_ne_nil hafter
  obtain rfl : d = ']' := by simpa using cut_stops _ cs inner t d hin
  simp only [List.cons_append, token, hcut, hin]

theorem alone_append (c : Char) (cs : List Char) (h : Alone c cs) (hdot : cs = [] → c ≠ '.') :
    Alone c (cs ++ s :: rest) := by
  refine ⟨h.1, ?_⟩
  rcases cs with _ | ⟨d, cs⟩
  · rcases hs with rfl | rfl <;> simpa [pairs] using hdot
  · exact h.2

theorem token_append (cs : List Char) (hcs : cs ≠ [])
    (h : (token cs).1 ≠ .invalid ∨ (token cs).2.2 ≠ []) :
    token (cs ++ s :: rest) = ((token cs).1, (token cs).2.1, (token cs).2.2 ++ s :: rest) := by
  have hname : isNameChar s = false := by rcases hs with rfl | rfl <;> rfl
  have hdigit : s.isDigit = false := by rcases hs with rfl | rfl <;> rfl
  have hquote : s ∉ ['\'', '"', '`', '>'] := by rcases hs with rfl | rfl <;> decide
  simp only [List.mem_cons, List.not_mem_nil, or_false, not_or] at hquote
  obtain ⟨hsingle, hdouble, hback, hgreater⟩ := hquote
  match cs with
  | c :: cs =>
  by_cases halone : Alone c cs
  · by_cases hdot : cs = [] → c ≠ '.'
    · have hnumber := numberToken_append s hs rest (c :: cs)
      have hword := cut_append isNameChar (c :: cs) rest s (Or.inl hname)
      simp only [List.cons_append] at hnumber hword
      simp only [List.cons_append, token_alone c _ (alone_append s hs rest c cs halone hdot),
        token_alone c cs halone, hnumber, hword, cut_append isNameChar cs rest s (Or.inl hname)]
      repeat' split
      all_goals rfl
    · obtain ⟨rfl, rfl⟩ : cs = [] ∧ c = '.' := by simpa using hdot
      simp [token, hdigit, show startsName '.' = false from rfl]
  · rcases not_alone c cs halone with hc | ⟨d, t, rfl, rfl | hpair⟩
    · simp only [openers, List.mem_cons, List.not_mem_nil, or_false] at hc
      rcases hc with rfl | rfl | rfl | rfl | rfl
      · simp only [token] at h
        simp [token, quotedToken_append _ _ s hsingle rest cs h]
      · simp only [token] at h
        simp [token, quotedToken_append _ _ s hdouble rest cs h]
      · simp only [token] at h
        simp [token, quotedToken_append _ _ s hback rest cs h]
      · exact bracket_append s rest cs h
      · simp [token, cut_append _ _ rest s (Or.inl hdigit)]
    · have hnumber := numberToken_append s hs rest ('.' :: d :: t)
      simp only [List.cons_append] at hnumber
      cases hd : d.isDigit <;> simp [token, hnumber, hd]
    · simp only [pairs, List.mem_cons, List.not_mem_nil, or_false, Prod.mk.injEq] at hpair
      rcases hpair with ⟨rfl, rfl⟩ | ⟨rfl, rfl⟩ | ⟨rfl, rfl⟩ | hmark
      · simp [token, blobToken_append s hs]
      · simp [token, blobToken_append s hs]
      · rcases t with _ | ⟨e, t⟩
        · simp [token, hgreater]
        · by_cases he : e = '>'
          · simp [token, he]
          · simp [token, he]
      · rcases hmark with ⟨rfl, rfl⟩ | ⟨rfl, rfl⟩ | ⟨rfl, rfl⟩ | ⟨rfl, rfl⟩ | ⟨rfl, rfl⟩ |
          ⟨rfl, rfl⟩ | ⟨rfl, rfl⟩ | ⟨rfl, rfl⟩ <;> rfl

end Stop

end VmFleet.Sql
