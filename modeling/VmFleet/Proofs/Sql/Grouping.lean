import VmFleet.Proofs.Sql.Scanning
import VmFleet.Sql.Tree

/-!
# Trees and their tokens

Grouping tokens by parentheses loses nothing: the tokens of the trees are the tokens that were
grouped, and grouping the tokens of trees gives the trees back, whatever follows.
-/

set_option autoImplicit false

namespace VmFleet.Sql.Tree

mutual

def tokensOf : Tree → List Token
  | .leaf t => [t]
  | .group gap inner last => ⟨gap, .mark, ['(']⟩ :: (tokensAll inner ++ [⟨last, .mark, [')']⟩])

def tokensAll : List Tree → List Token
  | [] => []
  | t :: ts => tokensOf t ++ tokensAll ts

end

mutual

/-- No leaf is a parenthesis or ends a statement. -/
def IsProper : Tree → Prop
  | .leaf t => t.key ≠ "(" ∧ t.key ≠ ")" ∧ t.key ≠ ";"
  | .group _ inner _ => AreProper inner

def AreProper : List Tree → Prop
  | [] => True
  | t :: ts => IsProper t ∧ AreProper ts

end

@[simp] theorem key_open (gap : List Char) : Token.key ⟨gap, .mark, ['(']⟩ = "(" := rfl

@[simp] theorem key_close (gap : List Char) : Token.key ⟨gap, .mark, [')']⟩ = ")" := rfl

@[simp] theorem tokensAll_nil : tokensAll [] = [] := rfl

@[simp] theorem tokensAll_leaf (t : Token) (ts : List Tree) :
    tokensAll (.leaf t :: ts) = t :: tokensAll ts := rfl

@[simp] theorem tokensAll_group (gap : List Char) (inner : List Tree) (last : List Char)
    (ts : List Tree) : tokensAll (.group gap inner last :: ts) =
      ⟨gap, .mark, ['(']⟩ :: (tokensAll inner ++ [⟨last, .mark, [')']⟩]) ++ tokensAll ts := rfl

@[simp] theorem tokensAll_append (ts us : List Tree) :
    tokensAll (ts ++ us) = tokensAll ts ++ tokensAll us := by
  induction ts with
  | nil => rfl
  | cons t ts ih => simp [tokensAll, ih]

theorem areProper_append (ts us : List Tree) :
    AreProper (ts ++ us) ↔ AreProper ts ∧ AreProper us := by
  induction ts with
  | nil => simp [AreProper]
  | cons t ts ih => simp [AreProper, ih, and_assoc]

mutual

theorem build_tokensOf (t : Tree) (h : IsProper t) (outer : List (List Char × List Tree))
    (done : List Tree) (more : List Token) :
    build outer done (tokensOf t ++ more) = build outer (t :: done) more := by
  cases t with
  | leaf t => simp [tokensOf, build, h.1, h.2.1]
  | group gap inner last =>
    simp only [tokensOf, List.cons_append, List.append_assoc, build, key_open, if_true]
    rw [build_tokensAll inner h]
    simp [build]

theorem build_tokensAll (ts : List Tree) (h : AreProper ts) (outer : List (List Char × List Tree))
    (done : List Tree) (more : List Token) :
    build outer done (tokensAll ts ++ more) = build outer (ts.reverse ++ done) more := by
  cases ts with
  | nil => rfl
  | cons t ts =>
    rw [tokensAll, List.append_assoc, build_tokensOf t h.1, build_tokensAll ts h.2]
    simp

end

/-- The tokens of what was read so far. -/
def tokensBefore : List (List Char × List Tree) → List Tree → List Token
  | [], done => tokensAll done.reverse
  | (gap, before) :: outer, done =>
    tokensBefore outer before ++ ⟨gap, .mark, ['(']⟩ :: tokensAll done.reverse

def ProperBefore (outer : List (List Char × List Tree)) (done : List Tree) : Prop :=
  AreProper done.reverse ∧ ∀ o ∈ outer, AreProper o.2.reverse

theorem tokensBefore_cons (outer : List (List Char × List Tree)) (t : Tree) (done : List Tree) :
    tokensBefore outer (t :: done) = tokensBefore outer done ++ tokensOf t := by
  cases outer with
  | nil => simp [tokensBefore, tokensAll_append, tokensAll]
  | cons o outer => simp [tokensBefore, tokensAll_append, tokensAll]

theorem tokensAll_build (outer : List (List Char × List Tree)) (done ts : List Tree)
    (toks : List Token)
    (hparens : ∀ t ∈ toks, (t.key = "(" → t = ⟨t.gap, .mark, ['(']⟩) ∧
      (t.key = ")" → t = ⟨t.gap, .mark, [')']⟩) ∧ t.key ≠ ";")
    (hbefore : ProperBefore outer done) (h : build outer done toks = some ts) :
    tokensAll ts = tokensBefore outer done ++ toks ∧ AreProper ts := by
  induction toks generalizing outer done with
  | nil =>
    cases outer with
    | nil =>
      simp only [build, List.isEmpty_nil, if_true, Option.some.injEq] at h
      subst h
      exact ⟨by simp [tokensBefore], hbefore.1⟩
    | cons o outer => cases h
  | cons t toks ih =>
    have hrest := fun u hu => hparens u (List.mem_cons_of_mem t hu)
    obtain ⟨hopen, hclose, hsemi⟩ := hparens t List.mem_cons_self
    unfold build at h
    split at h
    · rename_i hkey
      obtain ⟨htoks, hproper⟩ := ih _ _ hrest
        ⟨by simp [AreProper], List.forall_mem_cons.2 ⟨hbefore.1, hbefore.2⟩⟩ h
      refine ⟨?_, hproper⟩
      rw [htoks, hopen hkey]
      simp [tokensBefore]
    · split at h
      · rename_i hkey
        cases outer with
        | nil => cases h
        | cons o outer =>
          obtain ⟨gap, before⟩ := o
          simp only at h
          have hb : AreProper before.reverse := hbefore.2 (gap, before) (by simp)
          obtain ⟨htoks, hproper⟩ := ih _ _ hrest ⟨by
            simpa [areProper_append, AreProper, IsProper, hb] using hbefore.1, fun o ho =>
              hbefore.2 o (List.mem_cons_of_mem _ ho)⟩ h
          refine ⟨?_, hproper⟩
          rw [htoks, hclose hkey, tokensBefore_cons]
          simp [tokensBefore, tokensOf]
      · rename_i hopen' hclose'
        obtain ⟨htoks, hproper⟩ := ih _ _ hrest ⟨by
          simpa [areProper_append, AreProper, IsProper, hopen', hclose', hsemi] using hbefore.1,
          hbefore.2⟩ h
        refine ⟨?_, hproper⟩
        rw [htoks, tokensBefore_cons]
        simp [tokensOf]

mutual

theorem spell_tokensOf (t : Tree) : spell (tokensOf t) = t.gap ++ t.text := by
  cases t with
  | leaf t => simp [tokensOf, spell, gap, text]
  | group gap inner last =>
    have hinner := spell_tokensAll inner
    simp only [spell] at hinner
    simp [tokensOf, spell, hinner, Tree.gap, text]

theorem spell_tokensAll (ts : List Tree) : spell (tokensAll ts) = textAll ts := by
  cases ts with
  | nil => rfl
  | cons t ts =>
    have ht := spell_tokensOf t
    have hts := spell_tokensAll ts
    simp only [spell] at ht hts
    simp [tokensAll, spell, ht, hts, textAll]

end

mutual

theorem semicolon_not_mem_tokensOf (t : Tree) (h : IsProper t) : ∀ u ∈ tokensOf t, u.key ≠ ";" := by
  cases t with
  | leaf t => simpa [tokensOf] using h.2.2
  | group gap inner last =>
    have hinner := semicolon_not_mem_tokensAll inner h
    simp only [tokensOf, List.mem_cons, List.mem_append, List.not_mem_nil, or_false]
    rintro u (rfl | hu | rfl)
    · simp
    · exact hinner u hu
    · simp

theorem semicolon_not_mem_tokensAll (ts : List Tree) (h : AreProper ts) :
    ∀ u ∈ tokensAll ts, u.key ≠ ";" := by
  cases ts with
  | nil => simp [tokensAll]
  | cons t ts =>
    have ht := semicolon_not_mem_tokensOf t h.1
    have hts := semicolon_not_mem_tokensAll ts h.2
    simp only [tokensAll, List.mem_append]
    rintro u (hu | hu)
    · exact ht u hu
    · exact hts u hu

end

/-! ## Texts of a few trees -/

@[simp] theorem span_leaf (t : Token) : span [.leaf t] = t.text := by simp [span, text, textAll]

@[simp] theorem span_leaves (s t : Token) :
    span [.leaf s, .leaf t] = s.text ++ t.gap ++ t.text := by
  simp [span, text, textAll, Tree.gap]

@[simp] theorem span_group (gap : List Char) (inner : List Tree) (last : List Char) :
    span [.group gap inner last] = '(' :: (textAll inner ++ last ++ [')']) := by
  simp [span, text, textAll]

/-! ## A gap in front -/

def precede (gap : List Char) : List Tree → List Tree
  | [] => []
  | .leaf t :: ts => .leaf { t with gap := gap ++ t.gap } :: ts
  | .group g inner last :: ts => .group (gap ++ g) inner last :: ts

theorem tokensAll_precede (gap : List Char) (ts : List Tree) :
    tokensAll (precede gap ts) = prepend gap (tokensAll ts) := by
  match ts with
  | [] => rfl
  | .leaf t :: ts => rfl
  | .group g inner last :: ts => rfl

theorem areProper_precede (gap : List Char) (ts : List Tree) (h : AreProper ts) :
    AreProper (precede gap ts) := by
  match ts with
  | [] => trivial
  | .leaf t :: ts => exact h
  | .group g inner last :: ts => exact h

/-! ## Trees of a text -/

theorem tokens_eq (text : String) (h : '\x00' ∉ text.toList) :
    tokens text = scanAll [] text.toList := by
  have hall : ∀ c ∈ text.toList, decide (c ≠ '\x00') = true := by
    intro c hc
    simpa using fun hzero : c = '\x00' => h (hzero ▸ hc)
  rw [tokens, List.takeWhile_eq_self_iff.2 hall, scanAll]

theorem isNameChar_toUpper (c : Char) (h : isNameChar c = true) : isNameChar c.toUpper = true := by
  unfold Char.toUpper
  split
  · rename_i hlower
    simp only [isNameChar, Char.isAlphanum, Bool.or_eq_true]
    refine Or.inl (Or.inl (Or.inl (Or.inl ((isAlpha_iff _).2 (Or.inl ?_)))))
    simp only [UInt32.le_iff_toNat_le, ← Char.toNat_val, UInt32.toNat_add] at hlower ⊢
    simp at hlower ⊢
    omega
  · exact h

theorem key_mark (t : Token) (c : Char) (hc : isNameChar c = false) (gap cs : List Char)
    (ht : t ∈ scanAll gap cs) (hkey : t.key = String.ofList [c]) : t = ⟨t.gap, .mark, [c]⟩ := by
  obtain ⟨all, -, hkind, htext⟩ := mem_scanAll gap cs t ht
  have hfits := token_fits all
  rw [hkind, htext] at hfits
  obtain ⟨g, kind, text⟩ := t
  cases kind
  case mark =>
    simp only [Token.key, String.ofList_inj] at hkey
    rw [hkey]
  case word =>
    have hupper := congrArg String.toList hkey
    simp [Token.key, String.toUpper, String.toList_map, String.toList_ofList,
      List.map_eq_singleton_iff] at hupper
    obtain ⟨d, rfl, rfl⟩ := hupper
    simp [isNameChar_toUpper d (hfits d (by simp))] at hc
  all_goals
    simp [Token.key] at hkey

theorem tokensAll_of_ofText (text : String) (ts : List Tree) (h : ofText? text = some ts) :
    tokensAll ts = (tokens text).takeWhile (fun t => t.key ≠ ";") ∧ AreProper ts := by
  refine tokensAll_build [] [] ts _ (fun t ht => ?_) ⟨trivial, by simp⟩ h
  have hmem := List.takeWhile_sublist _ |>.subset ht
  have hsemi : t.key ≠ ";" := by simpa using List.all_eq_true.1 List.all_takeWhile t ht
  exact ⟨key_mark t '(' rfl [] _ hmem, key_mark t ')' rfl [] _ hmem, hsemi⟩

theorem eq_nil_of_spell (gap cs : List Char) (us : List Token) (hus : ∀ u ∈ us, u ∈ scanAll gap cs)
    (h : spell us = []) : us = [] := by
  rcases us with _ | ⟨u, us⟩
  · rfl
  · obtain ⟨all, hall, -, htext⟩ := mem_scanAll gap cs u (hus u (by simp))
    have hne := token_ne_nil all hall
    simp [spell, ← htext, hne] at h

theorem textAll_eq (ts : List Tree) : ∃ gap, textAll ts = gap ++ span ts := by
  cases ts with
  | nil => exact ⟨[], rfl⟩
  | cons t ts => exact ⟨t.gap, by simp [textAll, span]⟩

/-- A text that its trees give back whole has the tokens of its trees. -/
theorem scanAll_of_ofText (text : String) (ts : List Tree) (h : ofText? text = some ts)
    (hspan : span ts = text.toList) :
    '\x00' ∉ text.toList ∧ scanAll [] text.toList = tokensAll ts ∧ AreProper ts ∧
      spell (tokensAll ts) = text.toList := by
  obtain ⟨htoks, hproper⟩ := tokensAll_of_ofText text ts h
  let cs := text.toList.takeWhile (· ≠ '\x00')
  let zeros := text.toList.dropWhile (· ≠ '\x00')
  let dropped := (tokens text).dropWhile fun t => t.key ≠ ";"
  have htext : cs ++ zeros = text.toList := List.takeWhile_append_dropWhile
  have hsplit : tokensAll ts ++ dropped = scanAll [] cs := by
    rw [htoks]
    exact List.takeWhile_append_dropWhile
  obtain ⟨last, hlast⟩ := spell_scanAll [] cs
  obtain ⟨gap, hgap⟩ := textAll_eq ts
  rw [← hsplit, spell, List.flatMap_append] at hlast
  have hspell : spell (tokensAll ts) = gap ++ text.toList := by rw [spell_tokensAll, hgap, hspan]
  -- The text of the trees, what the grouping left out and what the scan left out make up the text,
  -- so that the last two are empty when the first is the whole text.
  have hlen := congrArg List.length hlast
  have hlen' := congrArg List.length htext
  change (spell (tokensAll ts) ++ spell dropped ++ last).length = _ at hlen
  simp only [hspell, List.length_append, List.nil_append] at hlen hlen'
  have hzeros : zeros = [] := List.length_eq_zero_iff.1 (by omega)
  have hdropped : dropped = [] := by
    refine eq_nil_of_spell [] cs dropped (fun u hu => ?_) (List.length_eq_zero_iff.1 (by omega))
    rw [← hsplit]
    exact List.mem_append_right _ hu
  have hnogap : gap = [] := List.length_eq_zero_iff.1 (by omega)
  have hcs : cs = text.toList := by simpa [hzeros] using htext
  refine ⟨fun hzero => ?_, ?_, hproper, by rw [hspell, hnogap, List.nil_append]⟩
  · rw [← hcs] at hzero
    simpa using List.all_eq_true.1 List.all_takeWhile _ hzero
  · rw [← hcs, ← hsplit, hdropped, List.append_nil]

theorem ofText_of_scanAll (text : String) (ts : List Tree) (hzero : '\x00' ∉ text.toList)
    (hproper : AreProper ts)
    (hscan : scanAll [] text.toList = tokensAll ts ++ [⟨[], .mark, [';']⟩]) :
    ofText? text = some ts := by
  have hall : ∀ t ∈ tokensAll ts, decide (t.key ≠ ";") = true := fun t ht => by
    simpa using semicolon_not_mem_tokensAll ts hproper t ht
  have htake : (tokens text).takeWhile (fun t => t.key ≠ ";") = tokensAll ts := by
    rw [tokens_eq text hzero, hscan, List.takeWhile_append_of_pos hall]
    simp [show Token.key ⟨[], .mark, [';']⟩ = ";" from rfl]
  have hbuild := build_tokensAll ts hproper [] [] []
  rw [ofText?, htake, ← List.append_nil (tokensAll ts), hbuild]
  simp [build]

end VmFleet.Sql.Tree
