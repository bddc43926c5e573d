import VmFleet.Proofs.Sql.Defaults
import VmFleet.Schema.Versioned

/-!
# The texts of statements

The statements that create a table or an index, or ask for the columns of a table, are read as the
trees that they are meant as, when every name in them is plain and every default is written as one.
-/

set_option autoImplicit false

namespace VmFleet.Schema

open Sql
open Sql.Tree (tokensAll AreProper IsProper precede)

/-- A name that may stand in a statement without quotes. -/
structure IsPlain (name : String) : Prop where
  word : IsWord name.toList
  free : name.toUpper ∉ Token.reserved

instance (name : String) : Decidable (IsPlain name) :=
  decidable_of_iff (IsWord name.toList ∧ name.toUpper ∉ Token.reserved)
    ⟨fun h => ⟨h.1, h.2⟩, fun h => ⟨h.1, h.2⟩⟩

def leafOf (gap : List Char) (word : String) : Tree := .leaf ⟨gap, .word, word.toList⟩

/-! ## Words -/

theorem key_leafOf (gap : List Char) (word : String) : (leafOf gap word).key = word.toUpper := by
  simp [leafOf, Tree.key, Token.key, String.ofList_toList]

theorem toUpper_ne (word k : String) (h : IsWord word.toList)
    (hk : ∃ c ∈ k.toList, isNameChar c = false) : word.toUpper ≠ k := by
  rintro rfl
  obtain ⟨c, hc, hname⟩ := hk
  rw [String.toUpper, String.toList_map, List.mem_map] at hc
  obtain ⟨d, hd, rfl⟩ := hc
  simp [Tree.isNameChar_toUpper d (h.goes_on d hd)] at hname

theorem isProper_leafOf (gap : List Char) (word : String) (h : IsWord word.toList) :
    IsProper (leafOf gap word) := by
  have hkey := key_leafOf gap word
  simp only [leafOf, Tree.key] at hkey
  simp only [leafOf, IsProper, hkey]
  exact ⟨toUpper_ne word _ h ⟨'(', by simp, rfl⟩, toUpper_ne word _ h ⟨')', by simp, rfl⟩,
    toUpper_ne word _ h ⟨';', by simp, rfl⟩⟩

def spacedLeaves (words : List String) : List Tree := words.map (leafOf [' '])

theorem tokensAll_spacedLeaves (words : List String) :
    tokensAll (spacedLeaves words) = spacedTokens (words.map String.toList) := by
  induction words with
  | nil => rfl
  | cons w ws ih =>
    simp only [spacedLeaves, spacedTokens, List.map_cons, tokensAll] at ih ⊢
    rw [ih]
    rfl

theorem areProper_spacedLeaves (words : List String) (h : ∀ w ∈ words, IsWord w.toList) :
    AreProper (spacedLeaves words) := by
  induction words with
  | nil => trivial
  | cons w ws ih =>
    exact ⟨isProper_leafOf _ w (h w (by simp)), ih fun w hw => h w (by simp [hw])⟩

theorem scanAll_words (words : List String) (hwords : ∀ w ∈ words, IsWord w.toList)
    (rest : List Char) (hrest : Ends rest) :
    scanAll [] (spacedText (words.map String.toList) ++ rest) =
      tokensAll (spacedLeaves words) ++ scanAll [] rest := by
  rw [tokensAll_spacedLeaves]
  exact scanAll_spaced _ (by simpa using hwords) rest hrest

/-! ## Columns -/

def flagWords (c : ColumnSpec) : List String :=
  (if c.primaryKey then ["PRIMARY", "KEY"] else []) ++ (if c.notNull then ["NOT", "NULL"] else []) ++
    if c.unique then ["UNIQUE"] else []

def treesOf (v : String) : List Tree := (Tree.ofText? v).getD []

def defaultTrees : Option String → List Tree
  | some v => leafOf [' '] "DEFAULT" :: precede [' '] (treesOf v)
  | none => []

def columnTrees (gap : List Char) (c : ColumnSpec) : List Tree :=
  leafOf gap c.name :: spacedLeaves (c.type.name :: flagWords c) ++ defaultTrees c.default

structure PlainColumn (c : ColumnSpec) : Prop where
  name : IsPlain c.name
  default : ∀ v ∈ c.default, ∃ ts, WritesDefault v ts

instance (c : ColumnSpec) : Decidable (PlainColumn c) :=
  decidable_of_iff (IsPlain c.name ∧ ∀ v ∈ c.default, ∃ ts, WritesDefault v ts)
    ⟨fun h => ⟨h.1, h.2⟩, fun h => ⟨h.1, h.2⟩⟩

def keywords : List String :=
  ["CREATE", "TABLE", "INDEX", "ON", "PRAGMA", "TEXT", "INTEGER", "PRIMARY", "KEY", "NOT", "NULL",
   "UNIQUE", "DEFAULT"]

theorem isWord_of_keyword : ∀ w ∈ keywords, IsWord w.toList := by decide

theorem columnWords_keywords (c : ColumnSpec) : ∀ w ∈ c.type.name :: flagWords c, w ∈ keywords := by
  obtain ⟨name, type, pk, nn, u, d⟩ := c
  cases type <;> cases pk <;> cases nn <;> cases u <;> simp [flagWords, ColumnType.name, keywords]

def defaultText : Option String → List Char
  | some v => spacedText ["DEFAULT".toList] ++ ' ' :: v.toList
  | none => []

theorem column_text (c : ColumnSpec) :
    c.decl.text.toList = c.name.toList ++
      (spacedText ((c.type.name :: flagWords c).map String.toList) ++ defaultText c.default) := by
  obtain ⟨name, type, pk, nn, u, d⟩ := c
  cases pk <;> cases nn <;> cases u <;> cases d <;>
    simp [ColumnSpec.decl, ColumnDecl.text, flagWords, spacedText, defaultText]

theorem written_treesOf (v : String) (h : ∃ ts, WritesDefault v ts) :
    WritesDefault v (treesOf v) := by
  obtain ⟨ts, hts⟩ := h
  rw [treesOf, hts.1]
  exact hts

section Stop

variable (s : Char) (hs : s = ',' ∨ s = ')') (rest : List Char)
include hs

theorem ends_of_stop : Ends (s :: rest) :=
  ⟨s, rfl, by rcases hs with rfl | rfl <;> decide⟩

theorem ends_default (d : Option String) : Ends (defaultText d ++ s :: rest) := by
  cases d with
  | none => exact ends_of_stop s hs rest
  | some v => exact ⟨' ', rfl, rfl, by decide⟩

theorem scanAll_default (d : Option String) (hd : ∀ v ∈ d, ∃ ts, WritesDefault v ts) :
    scanAll [] (defaultText d ++ s :: rest) =
      tokensAll (defaultTrees d) ++ scanAll [] (s :: rest) := by
  cases d with
  | none => rfl
  | some v =>
    have hv := (written_treesOf v (hd v rfl)).written.scanAll_blank v (treesOf v) s hs rest
    have hword := scanAll_words ["DEFAULT"] (by decide) (' ' :: v.toList ++ s :: rest)
      ⟨' ', rfl, rfl, by decide⟩
    rw [hv] at hword
    rw [defaultText, List.append_assoc]
    exact hword

theorem scanAll_column (gap : List Char) (c : ColumnSpec) (hc : PlainColumn c) :
    scanAll gap (c.decl.text.toList ++ s :: rest) =
      tokensAll (columnTrees gap c) ++ scanAll [] (s :: rest) := by
  have hwords : ∀ w ∈ c.type.name :: flagWords c, IsWord w.toList := fun w hw =>
    isWord_of_keyword w (columnWords_keywords c w hw)
  have hends := ends_default s hs rest c.default
  rw [column_text, List.append_assoc, List.append_assoc,
    scanAll_word gap _ _ hc.name.word (ends_spaced _ _ hends), scanAll_words _ hwords _ hends,
    scanAll_default s hs rest c.default hc.default]
  simp [columnTrees, leafOf]

end Stop

theorem areProper_column (gap : List Char) (c : ColumnSpec) (hc : PlainColumn c) :
    AreProper (columnTrees gap c) := by
  have hwords := areProper_spacedLeaves (c.type.name :: flagWords c) fun w hw =>
    isWord_of_keyword w (columnWords_keywords c w hw)
  refine (Tree.areProper_append _ _).2 ⟨⟨isProper_leafOf gap c.name hc.name.word, hwords⟩, ?_⟩
  cases hd : c.default with
  | none => trivial
  | some v =>
    exact ⟨isProper_leafOf _ _ (by decide), Tree.areProper_precede _ _
      (written_treesOf v (hc.default v hd)).written.proper⟩

/-! ## Lists of columns -/

def comma : Tree := .leaf ⟨[], .mark, [',']⟩

def bodyTrees : List ColumnSpec → List Tree
  | [] => []
  | c :: cs => columnTrees [] c ++ cs.flatMap fun c => comma :: columnTrees [' '] c

theorem intercalate_cons (sep : List Char) (x : List Char) (xs : List (List Char)) :
    sep.intercalate (x :: xs) = x ++ xs.flatMap fun y => sep ++ y := by
  induction xs generalizing x with
  | nil => simp [List.intercalate]
  | cons y ys ih =>
    rw [List.flatMap_cons, List.append_assoc, ← ih y]
    simp [List.intercalate]

theorem column_starts (c : ColumnSpec) (hc : PlainColumn c) :
    ∃ d ∈ c.decl.text.toList.head?, isBlank d = false := by
  rw [column_text]
  exact unblank_append _ _ hc.name.word.unblank

/-- A column is followed by a comma or by the end of the list. -/
theorem columns_stop (cs : List ColumnSpec) (rest : List Char) : ∃ s more,
    (cs.flatMap fun c => ',' :: ' ' :: c.decl.text.toList) ++ ')' :: rest = s :: more ∧
      (s = ',' ∨ s = ')') := by
  cases cs with
  | nil => exact ⟨')', rest, rfl, Or.inr rfl⟩
  | cons c cs => exact ⟨',', _, rfl, Or.inl rfl⟩

theorem scanAll_columns (cs : List ColumnSpec) (hcs : ∀ c ∈ cs, PlainColumn c) (rest : List Char) :
    scanAll [] ((cs.flatMap fun c => ',' :: ' ' :: c.decl.text.toList) ++ ')' :: rest) =
      tokensAll (cs.flatMap fun c => comma :: columnTrees [' '] c) ++ scanAll [] (')' :: rest) := by
  induction cs with
  | nil => rfl
  | cons c cs ih =>
    have hc := hcs c (by simp)
    obtain ⟨s, more, hmore, hs⟩ := columns_stop cs rest
    have hcolumn := scanAll_column s hs more [' '] c hc
    rw [← hmore, ih fun c hc => hcs c (by simp [hc])] at hcolumn
    rw [List.flatMap_cons, List.append_assoc, List.cons_append, List.cons_append,
      scanAll_mark [] _ ',' (by simp),
      scanAll_blank [] _ (unblank_append _ _ (column_starts c hc)), List.nil_append, hcolumn]
    simp [comma]

theorem scanAll_body (cs : List ColumnSpec) (hcs : ∀ c ∈ cs, PlainColumn c) (rest : List Char) :
    scanAll [] ([',', ' '].intercalate (cs.map fun c => c.decl.text.toList) ++ ')' :: rest) =
      tokensAll (bodyTrees cs) ++ scanAll [] (')' :: rest) := by
  cases cs with
  | nil => rfl
  | cons c cs =>
    have hrest := scanAll_columns cs (fun c hc => hcs c (by simp [hc])) rest
    obtain ⟨s, more, hmore, hs⟩ := columns_stop cs rest
    have hcolumn := scanAll_column s hs more [] c (hcs c (by simp))
    rw [← hmore, hrest] at hcolumn
    have hjoin : [',', ' '].intercalate ((c :: cs).map fun c => c.decl.text.toList) =
        c.decl.text.toList ++ cs.flatMap fun c => ',' :: ' ' :: c.decl.text.toList := by
      rw [List.map_cons, intercalate_cons, List.flatMap_map]
      rfl
    rw [hjoin, List.append_assoc, hcolumn, bodyTrees, Tree.tokensAll_append, List.append_assoc]

theorem areProper_body (cs : List ColumnSpec) (hcs : ∀ c ∈ cs, PlainColumn c) :
    AreProper (bodyTrees cs) := by
  have hrest (cs : List ColumnSpec) (hcs : ∀ c ∈ cs, PlainColumn c) :
      AreProper (cs.flatMap fun c => comma :: columnTrees [' '] c) := by
    induction cs with
    | nil => trivial
    | cons c cs ih =>
      rw [List.flatMap_cons]
      have hcomma : IsProper comma := ⟨by decide, by decide, by decide⟩
      exact (Tree.areProper_append _ _).2 ⟨⟨hcomma, areProper_column _ c (hcs c (by simp))⟩,
        ih fun c hc => hcs c (by simp [hc])⟩
  cases cs with
  | nil => trivial
  | cons c cs =>
    exact (Tree.areProper_append _ _).2 ⟨areProper_column _ c (hcs c (by simp)),
      hrest cs fun c hc => hcs c (by simp [hc])⟩

/-! ## Statements -/

structure PlainTable (t : TableSpec) : Prop where
  name : IsPlain t.name
  columns : ∀ c ∈ t.columns, PlainColumn c
  indices : ∀ i ∈ t.indices, IsPlain i.1 ∧ IsPlain i.2

instance (t : TableSpec) : Decidable (PlainTable t) :=
  decidable_of_iff (IsPlain t.name ∧ (∀ c ∈ t.columns, PlainColumn c) ∧
    ∀ i ∈ t.indices, IsPlain i.1 ∧ IsPlain i.2)
    ⟨fun h => ⟨h.1, h.2.1, h.2.2⟩, fun h => ⟨h.1, h.2, h.3⟩⟩

theorem zero_not_mem_word (w : String) (h : IsWord w.toList) : '\x00' ∉ w.toList := fun hzero => by
  cases h.goes_on _ hzero

theorem zero_not_mem_spaced (ws : List String) (h : ∀ w ∈ ws, IsWord w.toList) :
    '\x00' ∉ spacedText (ws.map String.toList) := by
  simp only [spacedText, List.mem_flatMap, List.mem_map]
  rintro ⟨_, ⟨w, hw, rfl⟩, hzero⟩
  simp only [List.mem_cons] at hzero
  rcases hzero with hzero | hzero
  · cases hzero
  · exact zero_not_mem_word w (h w hw) hzero

theorem zero_not_mem_column (c : ColumnSpec) (hc : PlainColumn c) :
    '\x00' ∉ c.decl.text.toList := by
  have hwords := zero_not_mem_spaced (c.type.name :: flagWords c) fun w hw =>
    isWord_of_keyword w (columnWords_keywords c w hw)
  rw [column_text, List.mem_append, List.mem_append, not_or, not_or]
  refine ⟨zero_not_mem_word _ hc.name.word, hwords, ?_⟩
  cases hd : c.default with
  | none => simp [defaultText]
  | some v =>
    have hv := (written_treesOf v (hc.default v hd)).written.zero
    have hword := zero_not_mem_spaced ["DEFAULT"] (by decide)
    simpa [defaultText, hv] using hword

theorem zero_not_mem_intercalate (sep : List Char) (hsep : '\x00' ∉ sep) (xs : List (List Char))
    (h : ∀ x ∈ xs, '\x00' ∉ x) : '\x00' ∉ sep.intercalate xs := by
  cases xs with
  | nil => simp [List.intercalate]
  | cons x xs =>
    rw [intercalate_cons, List.mem_append, List.mem_flatMap, not_or]
    refine ⟨h x (by simp), ?_⟩
    rintro ⟨y, hy, hzero⟩
    rcases List.mem_append.1 hzero with hzero | hzero
    · exact hsep hzero
    · exact h y (by simp [hy]) hzero

theorem table_text (t : TableSpec) : t.decl.text.toList =
    "CREATE".toList ++ (spacedText (["TABLE", t.name].map String.toList) ++ ' ' :: '(' ::
      ([',', ' '].intercalate (t.columns.map fun c => c.decl.text.toList) ++ [')', ';'])) := by
  have htext : t.decl.text = "CREATE TABLE " ++ t.name ++ " (" ++
      ", ".intercalate ((t.columns.map ColumnSpec.decl).map ColumnDecl.text ++ []) ++ ");" := rfl
  simp only [htext, String.toList_append, String.toList_intercalate, List.map_map, spacedText,
    List.map_cons, List.map_nil, List.flatMap_cons, List.flatMap_nil, List.append_assoc,
    List.cons_append, List.append_nil]
  rfl

theorem table_trees (t : TableSpec) (ht : PlainTable t) :
    Tree.ofText? t.decl.text = some (leafOf [] "CREATE" :: spacedLeaves ["TABLE", t.name] ++
      [.group [' '] (bodyTrees t.columns) []]) := by
  have hwords : ∀ w ∈ ["TABLE", t.name], IsWord w.toList := by
    simpa using ⟨by decide, ht.name.word⟩
  refine Tree.ofText_of_scanAll _ _ ?_ ?_ ?_
  · have hbody := zero_not_mem_intercalate [',', ' '] (by decide)
      (t.columns.map fun c => c.decl.text.toList) (by
        simpa using fun c hc => zero_not_mem_column c (ht.columns c hc))
    rw [table_text]
    simpa using ⟨by simpa using zero_not_mem_spaced _ hwords, hbody⟩
  · exact ⟨isProper_leafOf _ _ (by decide), (Tree.areProper_append _ _).2
      ⟨areProper_spacedLeaves _ hwords, areProper_body _ ht.columns, trivial⟩⟩
  · rw [table_text, scanAll_word _ _ _ (by decide) (ends_spaced _ _ ⟨' ', rfl, rfl, by decide⟩),
      scanAll_words _ hwords _ ⟨' ', rfl, rfl, by decide⟩, scanAll_blank _ _ ⟨'(', rfl, rfl⟩,
      scanAll_mark _ _ '(' (by simp), scanAll_body _ ht.columns, scanAll_mark _ _ ')' (by simp),
      scanAll_mark _ _ ';' (by simp)]
    simp [leafOf, scanAll, scan]

/-- Words and then one name in parentheses, as in the statements that are not about columns. -/
theorem named_trees (first name text : String) (words : List String) (hfirst : IsWord first.toList)
    (hwords : ∀ w ∈ words, IsWord w.toList) (hname : IsWord name.toList)
    (htext : text.toList = first.toList ++ (spacedText (words.map String.toList) ++ '(' ::
      (name.toList ++ [')', ';']))) :
    Tree.ofText? text = some (leafOf [] first :: spacedLeaves words ++
      [.group [] [leafOf [] name] []]) := by
  refine Tree.ofText_of_scanAll _ _ ?_ ?_ ?_
  · rw [htext]
    simp [zero_not_mem_word _ hfirst, zero_not_mem_spaced _ hwords, zero_not_mem_word _ hname]
  · exact ⟨isProper_leafOf _ _ hfirst, (Tree.areProper_append _ _).2
      ⟨areProper_spacedLeaves _ hwords, ⟨isProper_leafOf _ _ hname, trivial⟩, trivial⟩⟩
  · rw [htext, scanAll_word _ _ _ hfirst (ends_spaced _ _ ⟨'(', rfl, rfl, by decide⟩),
      scanAll_words _ hwords _ ⟨'(', rfl, rfl, by decide⟩, scanAll_mark _ _ '(' (by simp),
      scanAll_word _ _ _ hname ⟨')', rfl, rfl, by decide⟩, scanAll_mark _ _ ')' (by simp),
      scanAll_mark _ _ ';' (by simp)]
    simp [leafOf, scanAll, scan]

theorem index_trees (table name column : String) (ht : IsPlain table) (hn : IsPlain name)
    (hc : IsPlain column) :
    Tree.ofText? (indexText table name column) =
      some (leafOf [] "CREATE" :: spacedLeaves ["INDEX", name, "ON", table] ++
        [.group [] [leafOf [] column] []]) := by
  refine named_trees "CREATE" column _ _ (by decide) ?_ hc.word ?_
  · simpa using ⟨by decide, hn.word, by decide, ht.word⟩
  · have htext : indexText table name column =
        "CREATE INDEX " ++ name ++ " ON " ++ table ++ "(" ++ column ++ ");" := rfl
    simp only [htext, String.toList_append, spacedText, List.map_cons, List.map_nil,
      List.flatMap_cons, List.flatMap_nil, List.append_assoc, List.cons_append, List.append_nil]
    rfl

theorem describe_trees (table : String) (ht : IsPlain table) :
    Tree.ofText? ("PRAGMA table_info(" ++ table ++ ");") =
      some (leafOf [] "PRAGMA" :: spacedLeaves ["table_info"] ++
        [.group [] [leafOf [] table] []]) := by
  refine named_trees "PRAGMA" table _ ["table_info"] (by decide) (by decide) ht.word ?_
  simp only [String.toList_append, spacedText, List.map_cons, List.map_nil, List.flatMap_cons,
    List.flatMap_nil, List.append_assoc, List.cons_append, List.append_nil]
  rfl

end VmFleet.Schema
