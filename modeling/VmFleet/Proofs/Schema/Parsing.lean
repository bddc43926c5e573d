import VmFleet.Proofs.Schema.Spelling
import Mathlib.Data.List.Forall2

/-!
# What the statements say

The statement that creates a table says of every column its name, its type, the rules that its flags
stand for and at most one default, which keeps the text that the engine reports. The other
statements say the names that were put into them.
-/

set_option autoImplicit false

namespace VmFleet.Schema

open Sql
open Sql.Expr (after? startsWith)
open Sql.Statement (columnRule? rules? name?)

/-! ## Words -/

theorem unquote_word (w : List Char) (h : IsWord w) : Token.unquote w = w := by
  obtain ⟨c, hc, hstart, -⟩ := h.starts
  obtain ⟨t, rfl⟩ := List.head?_eq_some_iff.1 hc
  have hne (d : Char) (hd : startsName d = false) : c ≠ d := by
    rintro rfl
    simp [hd] at hstart
  simp [Token.unquote, hne '[' rfl, hne '\'' rfl, hne '"' rfl, hne '`' rfl]

theorem name_leafOf (gap : List Char) (name : String) (h : IsPlain name) (rest : List Tree) :
    name? (leafOf gap name :: rest) = some (name, rest) := by
  have hkey := key_leafOf gap name
  simp only [leafOf, Tree.key] at hkey
  simp [name?, leafOf, Token.isName, hkey, h.free, Token.name, unquote_word _ h.word]

theorem after_leafOf (gap : List Char) (word k : String) (rest : List Tree) :
    after? k (leafOf gap word :: rest) = if word.toUpper = k then some rest else none := by
  simp [after?, key_leafOf]

theorem startsWith_leafOf (gap : List Char) (word : String) (keys : List String)
    (rest : List Tree) :
    startsWith keys (leafOf gap word :: rest) = keys.contains word.toUpper := by
  simp [startsWith, key_leafOf]

theorem toUpper_keyword : ∀ w ∈ keywords, w.toUpper = w := by decide +kernel

theorem key_keyword (gap : List Char) (word : String) (h : word ∈ keywords) :
    (leafOf gap word).key = word := by
  rw [key_leafOf, toUpper_keyword word h]

theorem after_keyword (gap : List Char) (word : String) (h : word ∈ keywords) (rest : List Tree) :
    after? word (leafOf gap word :: rest) = some rest := by
  simp [after?, key_keyword gap word h]

/-! ## Rules of columns -/

/-- Nothing that could still belong to the rule before. -/
def Settles (ts : List Tree) : Prop :=
  startsWith ["ASC", "DESC", "ON", "AUTOINCREMENT"] ts = false

def flagRules (c : ColumnSpec) : List ColumnRule :=
  (if c.primaryKey then [.primaryKey false false none] else []) ++
    (if c.notNull then [.notNull] else []) ++ if c.unique then [.unique none] else []

theorem settles_iff (t : Tree) (ts : List Tree) : Settles (t :: ts) ↔
    t.key ≠ "ASC" ∧ t.key ≠ "DESC" ∧ t.key ≠ "ON" ∧ t.key ≠ "AUTOINCREMENT" := by
  simp [Settles, startsWith]

theorem onConflict_of_settles (ts : List Tree) (h : Settles ts) :
    Statement.onConflict? ts = some (none, ts) := by
  cases ts with
  | nil => rfl
  | cons t ts => simp [Statement.onConflict?, after?, ((settles_iff t ts).1 h).2.2.1]

theorem rules_cons (n : Nat) (ts rest : List Tree) (r : ColumnRule) (hts : ts ≠ [])
    (h : columnRule? ts = some (r, rest)) :
    rules? columnRule? (n + 1) ts = (rules? columnRule? n rest).map (r :: ·) := by
  rw [rules?, h]
  · cases hrest : rules? columnRule? n rest <;> simp [hrest]
  · exact hts

theorem rules_primaryKey (n : Nat) (rest : List Tree) (h : Settles rest) :
    rules? columnRule? (n + 1) (leafOf [' '] "PRIMARY" :: leafOf [' '] "KEY" :: rest) =
      (rules? columnRule? n rest).map (.primaryKey false false none :: ·) := by
  refine rules_cons n _ rest _ (by simp) ?_
  have hkey := key_keyword [' '] "PRIMARY" (by decide)
  have hnext := after_keyword [' '] "KEY" (by decide) rest
  have hends : startsWith ["DESC"] rest = false ∧ startsWith ["ASC", "DESC"] rest = false ∧
      Statement.optional ["AUTOINCREMENT"] rest = (false, rest) := by
    cases rest with
    | nil => exact ⟨rfl, rfl, rfl⟩
    | cons t ts =>
      obtain ⟨hasc, hdesc, -, hcount⟩ := (settles_iff t ts).1 h
      simp [startsWith, Statement.optional, Statement.afterAll?, after?, hasc, hdesc, hcount]
  simp [columnRule?, hkey, hnext, hends, onConflict_of_settles rest h]

theorem rules_notNull (n : Nat) (rest : List Tree) (h : Settles rest) :
    rules? columnRule? (n + 1) (leafOf [' '] "NOT" :: leafOf [' '] "NULL" :: rest) =
      (rules? columnRule? n rest).map (.notNull :: ·) := by
  refine rules_cons n _ rest _ (by simp) ?_
  have hkey := key_keyword [' '] "NOT" (by decide)
  have hnext := after_keyword [' '] "NULL" (by decide) rest
  simp [columnRule?, hkey, hnext, onConflict_of_settles rest h]

theorem rules_unique (n : Nat) (rest : List Tree) (h : Settles rest) :
    rules? columnRule? (n + 1) (leafOf [' '] "UNIQUE" :: rest) =
      (rules? columnRule? n rest).map (.unique none :: ·) := by
  refine rules_cons n _ rest _ (by simp) ?_
  have hkey := key_keyword [' '] "UNIQUE" (by decide)
  simp [columnRule?, hkey, onConflict_of_settles rest h]

theorem rules_flags (c : ColumnSpec) (rest : List Tree) (h : Settles rest) (n : Nat) :
    rules? columnRule? (n + (flagRules c).length) (spacedLeaves (flagWords c) ++ rest) =
      (rules? columnRule? n rest).map (flagRules c ++ ·) := by
  have hnot (ts : List Tree) : Settles (leafOf [' '] "NOT" :: ts) :=
    (settles_iff _ _).2 (by rw [key_keyword [' '] "NOT" (by decide)]; decide)
  have hunique (ts : List Tree) : Settles (leafOf [' '] "UNIQUE" :: ts) :=
    (settles_iff _ _).2 (by rw [key_keyword [' '] "UNIQUE" (by decide)]; decide)
  obtain ⟨name, type, pk, nn, u, d⟩ := c
  cases pk <;> cases nn <;> cases u
  all_goals
    simp [flagRules, flagWords, spacedLeaves, rules_primaryKey, rules_notNull, rules_unique, hnot,
      hunique, h, Option.map_map, Function.comp_def]

/-! ## Columns -/

/-- The rule that a default stands for; its value is not looked at here. -/
def DefaultRules (d : Option String) (rules : List ColumnRule) : Prop :=
  match d with
  | none => rules = []
  | some v => ∃ e, rules = [.default (reportedDefault v) e]

theorem rules_default (d : Option String) (hd : ∀ v ∈ d, ∃ ts, WritesDefault v ts) (n : Nat)
    (hn : (defaultTrees d).length ≤ n) (rules : List ColumnRule)
    (h : rules? columnRule? n (defaultTrees d) = some rules) : DefaultRules d rules := by
  cases d with
  | none =>
    simp only [defaultTrees, rules?, Option.some.injEq] at h
    exact h.symm
  | some v =>
    obtain ⟨value, hvalue⟩ := (written_treesOf v (hd v rfl)).reported_eq v (treesOf v) [' ']
    have hkey := key_keyword [' '] "DEFAULT" (by decide)
    cases n with
    | zero => simp [defaultTrees] at hn
    | succ n =>
      have hrule : columnRule? (defaultTrees (some v)) = value.map fun e =>
          (.default (reportedDefault v) e, []) := by
        simp [defaultTrees, columnRule?, hkey, hvalue]
      cases value with
      | none =>
        simp only [defaultTrees, Option.map_none] at hrule h
        rw [rules?, hrule] at h
        · cases h
        · simp
      | some e =>
        rw [rules_cons n _ [] _ (by simp [defaultTrees]) hrule] at h
        simp [rules?] at h
        exact ⟨e, h.symm⟩

theorem settles_default (d : Option String) : Settles (defaultTrees d) := by
  cases d with
  | none => rfl
  | some v => exact (settles_iff _ _).2 (by rw [key_keyword [' '] "DEFAULT" (by decide)]; decide)

structure Declares (c : ColumnSpec) (d : Sql.ColumnDef) : Prop where
  name : d.name = c.name
  type : d.type = c.type.name
  rules : ∃ ds, d.rules = flagRules c ++ ds ∧ DefaultRules c.default ds

theorem flags_head (c : ColumnSpec) :
    spacedLeaves (flagWords c) ++ defaultTrees c.default = [] ∨
      ∃ w ∈ ["PRIMARY", "NOT", "UNIQUE", "DEFAULT"], ∃ rest,
        spacedLeaves (flagWords c) ++ defaultTrees c.default = leafOf [' '] w :: rest := by
  obtain ⟨name, type, pk, nn, u, d⟩ := c
  cases pk <;> cases nn <;> cases u <;> cases d <;>
    simp [flagWords, spacedLeaves, defaultTrees]

theorem isTypeTree_keyword (gap : List Char) (w : String) (h : w ∈ keywords) :
    Expr.isTypeTree (leafOf gap w) =
      (!Token.reserved.contains w && !Token.joinWords.contains w && w ≠ "INDEXED") := by
  have hkey := key_keyword gap w h
  simp only [leafOf, Tree.key] at hkey
  simp [Expr.isTypeTree, leafOf, Token.isTypeName, Token.isName, hkey]

theorem rule_isTypeTree (gap : List Char) (w : String)
    (h : w ∈ ["PRIMARY", "NOT", "UNIQUE", "DEFAULT"]) : Expr.isTypeTree (leafOf gap w) = false := by
  have hall : ∀ w ∈ ["PRIMARY", "NOT", "UNIQUE", "DEFAULT"],
      w ∈ keywords ∧ Token.reserved.contains w = true := by decide
  rw [isTypeTree_keyword gap w (hall w h).1, (hall w h).2]
  rfl

/-- What follows the type of a column is part of no type. -/
theorem typeTrees_column (c : ColumnSpec) :
    Expr.typeTrees? (spacedLeaves (c.type.name :: flagWords c) ++ defaultTrees c.default) =
      some ([leafOf [' '] c.type.name], spacedLeaves (flagWords c) ++ defaultTrees c.default) := by
  have htype : Expr.isTypeTree (leafOf [' '] c.type.name) = true := by
    cases c.type <;> exact (isTypeTree_keyword _ _ (by decide)).trans (by decide)
  change Expr.typeTrees? (leafOf [' '] c.type.name ::
    (spacedLeaves (flagWords c) ++ defaultTrees c.default)) = _
  rcases flags_head c with hnil | ⟨w, hw, rest, hrest⟩
  · rw [hnil]
    simp [Expr.typeTrees?, htype]
  · have hnext := rule_isTypeTree [' '] w hw
    rw [hrest]
    simp [Expr.typeTrees?, htype, hnext]
    rfl

theorem reported_type (t : ColumnType) :
    TypeName.reported (Tree.span [leafOf [' '] t.name]) = t.name := by
  cases t <;> decide +kernel

theorem columnDef_declares (gap : List Char) (c : ColumnSpec) (hc : PlainColumn c)
    (d : Sql.ColumnDef) (h : Statement.columnDef? (columnTrees gap c) = some d) : Declares c d := by
  rw [columnTrees, Statement.columnDef?, List.cons_append, name_leafOf gap c.name hc.name] at h
  simp only [Option.bind_eq_bind, Option.bind_some, typeTrees_column] at h
  obtain ⟨rules, hrules, hd⟩ := Option.bind_eq_some_iff.1 h
  cases hd
  have hlen : (flagRules c).length ≤ (spacedLeaves (flagWords c)).length := by
    obtain ⟨name, type, pk, nn, u, d⟩ := c
    cases pk <;> cases nn <;> cases u <;> simp [flagRules, flagWords, spacedLeaves]
  obtain ⟨n, hn⟩ := Nat.exists_eq_add_of_le' hlen
  rw [List.length_append, hn, Nat.add_right_comm, rules_flags c _ (settles_default c.default)]
    at hrules
  obtain ⟨ds, hds, rfl⟩ := Option.map_eq_some_iff.1 hrules
  exact ⟨rfl, reported_type c.type, ds, rfl,
    rules_default c.default hc.default _ (by omega) ds hds⟩

/-! ## Lists of columns -/

theorem parts_plain (ts : List Tree) (h : ∀ t ∈ ts, t.key ≠ ",") : Tree.parts ts = [ts] := by
  induction ts with
  | nil => rfl
  | cons t ts ih =>
    rw [Tree.parts, if_neg (h t (by simp)), ih fun t ht => h t (by simp [ht])]

theorem parts_comma (ts us : List Tree) (h : ∀ t ∈ ts, t.key ≠ ",") :
    Tree.parts (ts ++ comma :: us) = ts :: Tree.parts us := by
  induction ts with
  | nil => rw [List.nil_append, Tree.parts, if_pos (show comma.key = "," from rfl)]
  | cons t ts ih =>
    rw [List.cons_append, Tree.parts, if_neg (h t (by simp)), ih fun t ht => h t (by simp [ht])]

theorem leafOf_ne_comma (gap : List Char) (w : String) (h : IsWord w.toList) :
    (leafOf gap w).key ≠ "," := by
  rw [key_leafOf]
  exact toUpper_ne w _ h ⟨',', by simp, rfl⟩

theorem column_ne_comma (gap : List Char) (c : ColumnSpec) (hc : PlainColumn c) :
    ∀ t ∈ columnTrees gap c, t.key ≠ "," := by
  simp only [columnTrees, spacedLeaves, List.mem_append, List.mem_cons, List.mem_map]
  rintro t ((rfl | ⟨w, hw, rfl⟩) | ht)
  · exact leafOf_ne_comma gap _ hc.name.word
  · exact leafOf_ne_comma _ w (isWord_of_keyword w (columnWords_keywords c w (by simpa using hw)))
  · cases hd : c.default with
    | none => simp [hd, defaultTrees] at ht
    | some v =>
      rw [hd] at ht
      simp only [defaultTrees, List.mem_cons] at ht
      rcases ht with rfl | ht
      · exact leafOf_ne_comma _ _ (by decide)
      · exact (written_treesOf v (hc.default v hd)).ne_comma v _ [' '] t ht

theorem parts_columns (gap : List Char) (c : ColumnSpec) (cs : List ColumnSpec)
    (hcs : ∀ d ∈ c :: cs, PlainColumn d) :
    Tree.parts (columnTrees gap c ++ cs.flatMap fun c => comma :: columnTrees [' '] c) =
      columnTrees gap c :: cs.map (columnTrees [' ']) := by
  have hc := column_ne_comma gap c (hcs c (by simp))
  induction cs generalizing gap c with
  | nil =>
    rw [List.flatMap_nil, List.append_nil]
    exact parts_plain _ hc
  | cons d ds ih =>
    have hd : ∀ e ∈ d :: ds, PlainColumn e := fun e he => hcs e (List.mem_cons_of_mem c he)
    rw [List.flatMap_cons, List.cons_append, parts_comma _ _ hc,
      ih [' '] d hd (column_ne_comma [' '] d (hd d (by simp)))]
    rfl

theorem startsWith_tableRule (gap : List Char) (name : String) (h : IsPlain name)
    (rest : List Tree) : startsWith Statement.tableRuleWords (leafOf gap name :: rest) = false := by
  have hwords : ∀ w ∈ Statement.tableRuleWords, w ∈ Token.reserved := by decide
  rw [startsWith_leafOf]
  simpa using fun hw => h.free (hwords _ hw)

theorem body_declares (columns : List (List Char × ColumnSpec))
    (hcolumns : ∀ x ∈ columns, PlainColumn x.2) (defs : List Sql.ColumnDef)
    (rules : List TableRule)
    (h : Statement.body? (columns.map fun x => columnTrees x.1 x.2) = some (defs, rules)) :
    List.Forall₂ (fun x d => Declares x.2 d) columns defs ∧ rules = [] := by
  induction columns generalizing defs with
  | nil =>
    cases h
    exact ⟨.nil, rfl⟩
  | cons x xs ih =>
    obtain ⟨gap, c⟩ := x
    have hc := hcolumns (gap, c) (by simp)
    have hstart : startsWith Statement.tableRuleWords (columnTrees gap c) = false :=
      startsWith_tableRule gap c.name hc.name _
    rw [List.map_cons, Statement.body?, hstart] at h
    simp only [Bool.false_eq_true, if_false, Option.bind_eq_bind, Option.bind_eq_some_iff] at h
    obtain ⟨d, hd, ⟨ds, rules'⟩, hrest, heq⟩ := h
    cases heq
    obtain ⟨hforall, rfl⟩ := ih (fun x hx => hcolumns x (by simp [hx])) ds hrest
    exact ⟨.cons (columnDef_declares gap c hc d hd) hforall, rfl⟩

/-! ## Statements -/

theorem optional_absent (gap : List Char) (name : String) (next : Tree) (rest : List Tree)
    (h : next.key ≠ "NOT") :
    Statement.optional ["IF", "NOT", "EXISTS"] (leafOf gap name :: next :: rest) =
      (false, leafOf gap name :: next :: rest) := by
  have hnone : Statement.afterAll? ["IF", "NOT", "EXISTS"] (leafOf gap name :: next :: rest) =
      none := by
    rw [Statement.afterAll?, after_leafOf]
    split
    · simp [Statement.afterAll?, after?, h]
    · rfl
  rw [Statement.optional, hnone]

theorem path_leafOf (gap : List Char) (name : String) (h : IsPlain name) (next : Tree)
    (rest : List Tree) (hnext : next.key ≠ ".") :
    Statement.path? (leafOf gap name :: next :: rest) = some (⟨none, name⟩, next :: rest) := by
  rw [Statement.path?, name_leafOf gap name h]
  simp [after?, hnext]

/-- A table that is created says what its columns are to be. -/
theorem table_statement (t : TableSpec) (ht : PlainTable t) (st : Statement)
    (h : Statement.ofText? t.decl.text = some st) :
    ∃ defs, st = .createTable ⟨⟨none, t.name⟩, false, defs, [], true, false⟩ ∧
      List.Forall₂ Declares t.columns defs := by
  rw [Statement.ofText?, table_trees t ht] at h
  simp only [spacedLeaves, List.map_cons, List.map_nil, List.cons_append, List.nil_append,
    Option.bind_eq_bind, Option.bind_some, key_keyword _ "CREATE" (by decide),
    key_keyword _ "TABLE" (by decide)] at h
  rw [Statement.createTable?, optional_absent _ _ _ _ (by simp [Tree.key])] at h
  simp only [path_leafOf _ _ ht.name (.group [' '] (bodyTrees t.columns) []) [] (by simp [Tree.key]),
    Statement.group?, Option.bind_eq_bind, Option.bind_some] at h
  split at h
  · cases h
  split at h
  · cases h
  obtain ⟨⟨defs, rules⟩, hbody, h⟩ := Option.bind_eq_some_iff.1 h
  obtain ⟨hdefs, rfl⟩ : List.Forall₂ Declares t.columns defs ∧ rules = [] := by
    cases hcolumns : t.columns with
    | nil =>
      rw [hcolumns] at hbody
      cases hbody
    | cons c cs =>
      have hplain := ht.columns
      rw [hcolumns] at hbody hplain
      have hparts : Tree.parts (bodyTrees (c :: cs)) =
          (([], c) :: cs.map fun d => ([' '], d)).map fun x => columnTrees x.1 x.2 := by
        rw [bodyTrees, parts_columns [] c cs hplain, List.map_cons, List.map_map]
        rfl
      rw [hparts] at hbody
      obtain ⟨hall, hrules⟩ := body_declares _ (by simpa using hplain) defs rules hbody
      cases hall with
      | cons hfirst hrest =>
        exact ⟨.cons hfirst (by simpa only [List.forall₂_map_left_iff] using hrest), hrules⟩
  cases h
  exact ⟨defs, rfl, hdefs⟩

theorem index_statement (table name column : String) (ht : IsPlain table) (hn : IsPlain name)
    (hc : IsPlain column) (st : Statement)
    (h : Statement.ofText? (indexText table name column) = some st) :
    ∃ terms, st = .createIndex ⟨⟨none, name⟩, false, table, terms, none⟩ := by
  have hon := key_keyword [' '] "ON" (by decide)
  rw [Statement.ofText?, index_trees table name column ht hn hc] at h
  simp only [spacedLeaves, List.map_cons, List.map_nil, List.cons_append, List.nil_append,
    Option.bind_eq_bind, Option.bind_some, key_keyword _ "CREATE" (by decide),
    key_keyword _ "INDEX" (by decide)] at h
  rw [Statement.createIndex?, optional_absent _ _ _ _ (by simp [hon])] at h
  simp only [path_leafOf _ _ hn (leafOf [' '] "ON") _ (by simp [hon]),
    after_keyword [' '] "ON" (by decide), name_leafOf _ _ ht, Statement.group?,
    Option.bind_eq_bind, Option.bind_some] at h
  split at h
  · cases h
  obtain ⟨terms, -, h⟩ := Option.bind_eq_some_iff.1 h
  cases h
  exact ⟨terms, rfl⟩

theorem argument_leafOf (gap : List Char) (name : String) (h : IsPlain name) :
    Statement.argument? [leafOf gap name] = some name := by
  have hkey := key_leafOf gap name
  simp only [leafOf, Tree.key] at hkey
  simp [Statement.argument?, leafOf, Token.isName, hkey, h.free, Token.name,
    unquote_word _ h.word]

theorem describe_statement (table : String) (ht : IsPlain table) :
    Statement.ofText? ("PRAGMA table_info(" ++ table ++ ");") = some (.describeTable table) := by
  have hinfo : (leafOf [' '] "table_info").key = "TABLE_INFO" := by
    rw [key_leafOf]
    decide +kernel
  rw [Statement.ofText?, describe_trees table ht]
  simp [spacedLeaves, key_keyword _ "PRAGMA" (by decide), hinfo, argument_leafOf [] table ht]

end VmFleet.Schema
