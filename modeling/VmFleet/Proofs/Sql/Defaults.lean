import VmFleet.Proofs.Sql.Grouping
import VmFleet.Sql.Statement

/-!
# What is written for a default

A default is written as a literal, maybe with a sign, or as an expression in parentheses. In front
of a comma or a closing parenthesis it is read as what it is by itself, and what is reported of it
is the text as it was written or what stands between the parentheses, without blanks around it.
-/

set_option autoImplicit false

namespace VmFleet.Sql

open Sql.Tree (tokensAll precede AreProper)

def isLiteral (t : Token) : Bool :=
  (Expr.literal? t).isSome || (t.kind = .word && (t.key = "TRUE" || t.key = "FALSE"))

/-- The forms that a default may have. -/
inductive IsDefault : List Tree → Prop
  | literal (t : Token) (h : isLiteral t = true) : IsDefault [.leaf t]
  | signed (s t : Token) (hs : s.key = "+" ∨ s.key = "-") (h : (Expr.literal? t).isSome) :
    IsDefault [.leaf s, .leaf t]
  | wrapped (gap : List Char) (inner : List Tree) (last : List Char) :
    IsDefault [.group gap inner last]

def isDefault : List Tree → Bool
  | [.leaf t] => isLiteral t
  | [.leaf s, .leaf t] => (s.key = "+" || s.key = "-") && (Expr.literal? t).isSome
  | [.group _ _ _] => true
  | _ => false

theorem isDefault_iff (ts : List Tree) : isDefault ts = true ↔ IsDefault ts := by
  constructor
  · intro h
    fun_cases isDefault ts with
    | case1 t => exact .literal t h
    | case2 s t =>
      simp only [isDefault, Bool.and_eq_true, Bool.or_eq_true, decide_eq_true_eq] at h
      exact .signed s t h.1 h.2
    | case3 gap inner last => exact .wrapped gap inner last
    | case4 => simp [isDefault] at h
  · rintro (⟨t, h⟩ | ⟨s, t, hs, h⟩ | _)
    · exact h
    · simp [isDefault, hs, h]
    · rfl

instance (ts : List Tree) : Decidable (IsDefault ts) := decidable_of_iff _ (isDefault_iff ts)

/-- A default as it is written, without blanks or comments around it. -/
def WritesDefault (v : String) (ts : List Tree) : Prop :=
  Tree.ofText? v = some ts ∧ Tree.span ts = v.toList ∧ IsDefault ts

instance (v : String) : Decidable (∃ ts, WritesDefault v ts) :=
  decidable_of_iff (∃ ts ∈ Tree.ofText? v, Tree.span ts = v.toList ∧ IsDefault ts) Iff.rfl

/-- What the engine reports of a default. -/
def reportedDefault (v : String) : String :=
  match v.toList with
  | '(' :: cs => Statement.text cs.dropLast
  | _ => v

theorem literal_kind (t : Token) (h : isLiteral t = true) :
    t.kind ∈ [.word, .string, .blob, .number, .groupedNumber] := by
  obtain ⟨gap, kind, text⟩ := t
  cases kind <;> simp_all [isLiteral, Expr.literal?]

theorem literal_of_sign (t : Token) (h : (Expr.literal? t).isSome) : isLiteral t = true := by
  simp [isLiteral, h]

theorem literal_solid (gap cs : List Char) (t : Token) (ht : t ∈ scanAll gap cs)
    (h : isLiteral t = true) : t.text ≠ [] ∧ Solid t.text := by
  obtain ⟨all, hall, hkind, htext⟩ := mem_scanAll gap cs t ht
  have hne := token_ne_nil all hall
  have hfits := token_fits all
  rw [hkind, htext] at hfits
  rw [htext] at hne
  have hliteral := literal_kind t h
  obtain ⟨g, kind, text⟩ := t
  refine ⟨hne, ?_⟩
  cases kind
  case word => exact solid_of_all text fun c hc => not_isBlank_of_isNameChar c (hfits c hc)
  case string | blob | number | groupedNumber => exact hfits
  all_goals simp at hliteral

theorem signed_solid (cs t : List Char) (c : Char) (hc : isBlank c = false) (hne : t ≠ [])
    (ht : Solid t) : Solid (c :: (cs ++ t)) := by
  refine ⟨by simpa using hc, ?_⟩
  rw [List.getLast?_cons, List.getLast?_append]
  obtain ⟨d, hd⟩ := Option.ne_none_iff_exists'.1 (mt List.getLast?_eq_none_iff.1 hne)
  simpa [hd] using ht.2 d hd

theorem default_of_literal (t : Token) (h : isLiteral t = true) (hplus : t.key ≠ "+")
    (hminus : t.key ≠ "-") : ∃ e, Statement.default? [.leaf t] =
      some (.default (Statement.text t.text) e, []) := by
  cases hvalue : Expr.literal? t with
  | some e => exact ⟨e, by simp [Statement.default?, hplus, hminus, hvalue]⟩
  | none =>
    simp only [isLiteral, hvalue, Option.isSome_none, Bool.false_or, Bool.and_eq_true,
      decide_eq_true_eq, Bool.or_eq_true] at h
    have hname : Statement.isDefaultName t = true := by
      rcases h.2 with hkey | hkey
      · simp only [Statement.isDefaultName, Token.isName, h.1, hkey]
        decide
      · simp only [Statement.isDefaultName, Token.isName, h.1, hkey]
        decide
    exact ⟨.literal, by simp [Statement.default?, hplus, hminus, hvalue, hname]⟩

/-- What is known of the text of a default and its tokens. -/
structure Written (v : String) (ts : List Tree) : Prop where
  zero : '\x00' ∉ v.toList
  scan : scanAll [] v.toList = tokensAll ts
  proper : AreProper ts
  spelled : spell (tokensAll ts) = v.toList
  nonempty : v.toList ≠ []
  solid : Solid v.toList
  closed : ∀ t ∈ (tokensAll ts).getLast?, t.kind ≠ .invalid ∧ ¬(t.kind = .mark ∧ t.text = ['*'])

theorem WritesDefault.written (v : String) (ts : List Tree) (h : WritesDefault v ts) :
    Written v ts := by
  obtain ⟨hof, hspan, hdef⟩ := h
  obtain ⟨hzero, hscan, hproper, hspell⟩ := Tree.scanAll_of_ofText v ts hof hspan
  have hliteral (t : Token) (ht : isLiteral t = true) :
      t.kind ≠ .invalid ∧ ¬(t.kind = .mark ∧ t.text = ['*']) := by
    have hkind := literal_kind t ht
    constructor
    · intro hbad
      simp [hbad] at hkind
    · rintro ⟨hbad, -⟩
      simp [hbad] at hkind
  cases hdef with
  | literal t ht =>
    have htext : t.text = v.toList := by simpa using hspan
    obtain ⟨hne, hsolid⟩ := literal_solid [] v.toList t
      (by simp [hscan]) ht
    rw [htext] at hne hsolid
    refine ⟨hzero, hscan, hproper, hspell, hne, hsolid, ?_⟩
    simpa using hliteral t ht
  | signed s t hs ht =>
    obtain ⟨hne, hsolid⟩ := literal_solid [] v.toList t
      (by simp [hscan]) (literal_of_sign t ht)
    have htext : v.toList = s.text ++ (t.gap ++ t.text) := by
      simp [← hspan]
    have hmem : s ∈ scanAll [] v.toList := by simp [hscan]
    obtain ⟨c, hc, hsign⟩ : ∃ c, isBlank c = false ∧ s.text = [c] := by
      rcases hs with hs | hs
      · exact ⟨'+', rfl, by rw [Tree.key_mark s '+' rfl [] _ hmem hs]⟩
      · exact ⟨'-', rfl, by rw [Tree.key_mark s '-' rfl [] _ hmem hs]⟩
    rw [hsign] at htext
    refine ⟨hzero, hscan, hproper, hspell, by simp [htext], ?_, ?_⟩
    · rw [htext]
      exact signed_solid t.gap t.text c hc hne hsolid
    · simpa using hliteral t (literal_of_sign t ht)
  | wrapped gap inner last =>
    have htext : v.toList = '(' :: (Tree.textAll inner ++ last) ++ [')'] := by
      simp [← hspan]
    refine ⟨hzero, hscan, hproper, hspell, by simp [htext], ?_, ?_⟩
    · rw [htext]
      exact solid_between '(' ')' _ rfl rfl
    · simp [List.getLast?_cons]

/-- In front of a comma or a closing parenthesis, a default after a blank is read as by itself. -/
theorem Written.scanAll_blank (v : String) (ts : List Tree) (h : Written v ts) (s : Char)
    (hs : s = ',' ∨ s = ')') (rest : List Char) :
    scanAll [] (' ' :: v.toList ++ s :: rest) =
      tokensAll (precede [' '] ts) ++ scanAll [] (s :: rest) := by
  obtain ⟨c, cs, hv⟩ := List.exists_cons_of_ne_nil h.nonempty
  have hstart : ∃ c ∈ v.toList.head?, isBlank c = false :=
    ⟨c, by simp [hv], h.solid.1 c (by simp [hv])⟩
  have happend := scanAll_append s hs rest [] v.toList (by rw [h.scan, h.spelled]; rfl)
    (by rw [h.scan]; exact h.closed)
  have hgap := scanAll_prepend [' '] [] (v.toList ++ s :: rest)
  obtain ⟨t, us, hts⟩ : ∃ t us, tokensAll ts = t :: us := by
    refine List.exists_cons_of_ne_nil fun hnil => h.nonempty ?_
    rw [← h.spelled, hnil]
    rfl
  rw [happend, h.scan, hts] at hgap
  rw [Tree.tokensAll_precede, hts, List.cons_append,
    VmFleet.Sql.scanAll_blank [] _ (unblank_append _ _ hstart)]
  exact hgap

theorem Written.text_eq (v : String) (ts : List Tree) (h : Written v ts) :
    Statement.text v.toList = v := by
  rw [Statement.text, trimBlanks_solid _ h.solid, String.ofList_toList]

theorem reportedDefault_eq (v : String) (h : ∀ cs, v.toList ≠ '(' :: cs) :
    reportedDefault v = v := by
  unfold reportedDefault
  split
  · rename_i cs hv
    exact absurd hv (h cs)
  · rfl

theorem literal_key_ne (gap cs : List Char) (t : Token) (ht : t ∈ scanAll gap cs)
    (h : isLiteral t = true) (c : Char) (hc : isNameChar c = false) :
    t.key ≠ String.ofList [c] := fun hkey => by
  have hkind := literal_kind t h
  rw [Tree.key_mark t c hc gap cs ht hkey] at hkind
  simp at hkind

/-- A default is one part of a list. -/
theorem WritesDefault.ne_comma (v : String) (ts : List Tree) (h : WritesDefault v ts)
    (gap : List Char) : ∀ t ∈ precede gap ts, t.key ≠ "," := by
  have hscan := h.written.scan
  obtain ⟨-, -, hdef⟩ := h
  cases hdef with
  | literal t ht =>
    intro u hu
    obtain rfl := List.mem_singleton.1 hu
    exact literal_key_ne [] v.toList t (by simp [hscan]) ht ',' rfl
  | signed s t hs ht =>
    have hsecond := literal_key_ne [] v.toList t
      (by simp [hscan]) (literal_of_sign t ht) ',' rfl
    have hfirst : s.key ≠ "," := by
      rcases hs with hs | hs <;> simp [hs]
    exact List.forall_mem_cons.2 ⟨hfirst, List.forall_mem_singleton.2 hsecond⟩
  | wrapped g inner last => simp [precede, Tree.key]

/-- A literal starts with no parenthesis. -/
theorem WritesDefault.unopened (v : String) (ts : List Tree) (h : WritesDefault v ts)
    (hts : ∀ gap inner last, ts ≠ [.group gap inner last]) (cs : List Char) :
    v.toList ≠ '(' :: cs := fun hv => by
  have hscan := h.written.scan
  rw [hv, scanAll_mark [] cs '(' (by simp)] at hscan
  obtain ⟨-, -, hdef⟩ := h
  cases hdef with
  | literal t ht =>
    have hkind := literal_kind t ht
    simp only [Tree.tokensAll_leaf, List.cons.injEq] at hscan
    simp [← hscan.1] at hkind
  | signed s t hs ht =>
    simp only [Tree.tokensAll_leaf, List.cons.injEq] at hscan
    simp [← hscan.1] at hs
  | wrapped gap inner last => exact hts gap inner last rfl

theorem WritesDefault.wrapped_or (v : String) (ts : List Tree) (h : WritesDefault v ts) :
    (∃ inner, v.toList = '(' :: (inner ++ [')'])) ∨ ∀ cs, v.toList ≠ '(' :: cs := by
  by_cases hts : ∃ gap inner last, ts = [.group gap inner last]
  · obtain ⟨gap, inner, last, rfl⟩ := hts
    exact Or.inl ⟨Tree.textAll inner ++ last, by
      simp [← h.2.1]⟩
  · simp only [not_exists] at hts
    exact Or.inr (h.unopened v ts hts)

theorem WritesDefault.reported_eq (v : String) (ts : List Tree) (h : WritesDefault v ts)
    (gap : List Char) :
    ∃ value : Option Expr, Statement.default? (precede gap ts) =
      value.map fun e => (.default (reportedDefault v) e, []) := by
  have hwritten := h.written
  have hunopened := h.unopened
  obtain ⟨-, hspan, hdef⟩ := h
  cases hdef with
  | literal t ht =>
    have htext : t.text = v.toList := by simpa using hspan
    have hsign := literal_key_ne [] v.toList t
      (by simp [hwritten.scan]) ht
    have hplus : t.key ≠ "+" := hsign '+' rfl
    have hminus : t.key ≠ "-" := hsign '-' rfl
    have htrim : Statement.text t.text = v := by rw [htext, hwritten.text_eq]
    rw [reportedDefault_eq v (hunopened (by simp))]
    obtain ⟨e, he⟩ := default_of_literal { t with gap := gap ++ t.gap } ht hplus hminus
    exact ⟨some e, he.trans (by rw [htrim]; rfl)⟩
  | signed s t hs ht =>
    have htext : v.toList = s.text ++ t.gap ++ t.text := by
      simp [← hspan]
    have htrim : Statement.text (s.text ++ t.gap ++ t.text) = v := by
      rw [← htext, hwritten.text_eq]
    have hkey : Token.key { s with gap := gap ++ s.gap } = s.key := rfl
    rw [reportedDefault_eq v (hunopened (by simp))]
    refine ⟨Expr.literal? t, ?_⟩
    rcases hs with hs | hs
    · simp only [precede, Statement.default?, hkey, hs, htrim]
      rfl
    · simp only [precede, Statement.default?, hkey, hs, htrim]
      rfl
  | wrapped g inner last =>
    have htext : v.toList = '(' :: (Tree.textAll inner ++ last ++ [')']) := by
      simp [← hspan]
    have hreported : reportedDefault v = Statement.text (Tree.textAll inner ++ last) := by
      simp only [reportedDefault, htext, List.dropLast_concat]
    exact ⟨Expr.ofTrees? inner, by rw [hreported]; rfl⟩

end VmFleet.Sql
