import TableQuery.Proofs.Engine.Join
import TableQuery.Storage.DatabaseFile

/-!
# Loaded tables under their names

A request for a table quotes its name as a load does and finds the table that was loaded, unless
the name ends in a line break. That is taken for white space and dropped, so such a request is for
the table of another name.
-/

namespace TableQuery

open TableQuery.Text TableQuery.Sql

namespace Database

/-- The name of a table in the statements of a load: in double quotes, otherwise as it was given. -/
def quotedName (name : String) : String :=
  "\"" ++ name ++ "\""

theorem quotedName_injective : Function.Injective quotedName := by
  intro a b h
  rw [quotedName, quotedName, String.append_left_inj, String.append_right_inj] at h
  exact h

/-- The names that tables may have: those of letters, digits and underscores, also with one line
break at the end. -/
theorem isName_or_of_isTableName {name : String} (h : isTableName name = true) :
    isName name = true ∨ ∃ base, isName base = true ∧ name = base ++ "\n" := by
  rw [isTableName] at h
  split at h
  · cases h
  · next c s hname =>
      rw [Bool.and_eq_true] at h
      obtain ⟨hhead, hrest⟩ := h
      split_ifs at hrest with hbreak
      · obtain ⟨t, ht⟩ := List.isSuffixOf_iff_suffix.1 hbreak
        rw [← ht, List.dropLast_concat] at hrest
        refine .inr ⟨String.ofList (c :: t), ?_, ?_⟩
        · rw [isName, String.toList_ofList]
          exact Bool.and_eq_true_iff.2 ⟨hhead, hrest⟩
        · rw [← String.toList_inj, String.toList_append, String.toList_ofList, hname, ← ht]
          rfl
      · left
        rw [isName, hname]
        exact Bool.and_eq_true_iff.2 ⟨hhead, hrest⟩

theorem endsWith_break_of_isName {name : String} (h : isName name = true) :
    endsWith "\n" name = false := by
  rw [Bool.eq_false_iff]
  intro hends
  obtain ⟨t, ht⟩ := List.isSuffixOf_iff_suffix.1 hends
  have hbreak : '\n' ∈ name.toList := ht ▸ List.mem_append_right t List.mem_cons_self
  exact absurd (isPartTail_of_mem h _ hbreak) (by decide)

theorem endsWith_append_break (base : String) : endsWith "\n" (base ++ "\n") = true := by
  rw [endsWith, List.isSuffixOf_iff_suffix, String.toList_append]
  exact List.suffix_append _ _

end Database

namespace Sql.Identifier

theorem length_lowerAscii (s : String) : (lowerAscii s).length = s.length := by
  rw [lowerAscii, String.length_ofList, List.length_map, String.length_toList]

theorem quoted_ofName {s : String} (h : isName s = true) :
    (ofName s h).quoted = Database.quotedName s := by
  rw [← String.toList_inj, quoted, String.toList_ofList, Database.quotedName, String.toList_append,
    String.toList_append]
  simp [ofName, quotePart]

theorem parse?_trim (s : String) : parse? (trim s) = parse? s := by
  simp only [parse?, trim, trimChars_ofList_trimChars]

theorem trim_of_isName {s : String} (h : isName s = true) : trim s = s :=
  trim_eq_self fun c hc => not_isBlank_of_isPartTail (isPartTail_of_mem h c hc)

theorem trim_append_break {s : String} (h : isName s = true) : trim (s ++ "\n") = s := by
  have htail := isPartTail_of_mem h
  have hstrip : stripBy isBlank ([] ++ s.toList ++ ['\n']) = s.toList :=
    stripBy_append_append (List.all_eq_true.1 rfl) (List.all_eq_true.1 rfl)
      (fun c hc => not_isBlank_of_isPartTail (htail c (List.mem_of_mem_head? hc)))
      (fun c hc => not_isBlank_of_isPartTail (htail c (List.mem_of_mem_getLast? hc)))
  rw [trim, trimChars, String.toList_append]
  exact (congrArg String.ofList hstrip).trans String.ofList_toList

/-- A name that a table may have is read as the name without its line break. -/
theorem exists_read_of_isTableName {name : String} (h : Database.isTableName name = true) :
    ∃ hname : isName (trim name) = true,
      ∀ field, read field name = .ok (ofName (trim name) hname) := by
  have hname : isName (trim name) = true := by
    rcases Database.isName_or_of_isTableName h with hname | ⟨base, hbase, rfl⟩
    · rwa [trim_of_isName hname]
    · rwa [trim_append_break hbase]
  refine ⟨hname, fun field => ?_⟩
  have hread := read_of_isName hname field
  rw [read_eq_ok_iff, parse?_trim] at hread
  exact read_eq_ok_iff.2 hread

/-- No letter is lost to the line break: a name and what is read of it differ even when their
letters are not told apart by case. -/
theorem trim_eq_self_of_sameName {name : String} (h : Database.isTableName name = true)
    (hsame : sameName name (trim name) = true) : trim name = name := by
  rcases Database.isName_or_of_isTableName h with hname | ⟨base, hbase, rfl⟩
  · exact trim_of_isName hname
  · rw [trim_append_break hbase, sameName_iff] at hsame
    have hlength := congrArg String.length hsame
    rw [length_lowerAscii, length_lowerAscii, String.length_append] at hlength
    exact absurd hlength (Nat.ne_of_gt (Nat.lt_succ_self _))

theorem trim_eq_self_iff {name : String} (h : Database.isTableName name = true) :
    trim name = name ↔ endsWith "\n" name = false := by
  rcases Database.isName_or_of_isTableName h with hname | ⟨base, hbase, rfl⟩
  · exact iff_of_true (trim_of_isName hname) (Database.endsWith_break_of_isName hname)
  · rw [trim_append_break hbase, Database.endsWith_append_break]
    refine iff_of_false (fun heq => ?_) (by decide)
    have hlength := congrArg String.length heq
    rw [String.length_append] at hlength
    exact absurd hlength (Nat.ne_of_lt (Nat.lt_succ_self _))

end Sql.Identifier

namespace Database

theorem sameName_of_table? {d : Database} {name : String} {t : TableData}
    (h : d.table? name = some t) : sameName t.name name = true :=
  List.find?_some (p := fun u : TableData => sameName u.name name) h

theorem table?_put (d : Database) (t : TableData) : (d.put t).table? t.name = some t := by
  have hself : sameName t.name t.name = true := sameName_iff.2 rfl
  rw [put]
  split_ifs with hfound
  · obtain ⟨old, hold⟩ := Option.isSome_iff_exists.1 hfound
    have hname : ((fun u : TableData => sameName u.name t.name) ∘ fun old : TableData =>
        if sameName old.name t.name then t else old) = fun u => sameName u.name t.name := by
      funext u
      rw [Function.comp_apply]
      split_ifs with hu
      · rw [hself, hu]
      · rfl
    have holds := sameName_of_table? hold
    rw [table?] at hold
    rw [table?, List.find?_map, hname, hold, Option.map_some, if_pos holds]
  · rw [Option.not_isSome_iff_eq_none, table?] at hfound
    rw [table?, List.find?_append, hfound, Option.none_or,
      List.find?_cons_of_pos (p := fun u : TableData => sameName u.name t.name) hself]

theorem name_of_append {t new t' : TableData} (h : append t new = .ok t') : t'.name = t.name := by
  rw [append] at h
  split_ifs at h
  split at h
  · cases h
    rfl
  · cases h

/-- A load that is not refused appends to the table of its name or makes a new one. -/
theorem load_eq (d : Database) (replace : Bool) (name : String) (data : Csv.Data) :
    d.load replace name data =
      if sameName name stagingName then .error .catalog
      else
        let rest := if replace then d.drop name else d
        let new := Csv.toTable name data
        match rest.table? name with
        | none => .ok (rest.put new, new.rows.length)
        | some t =>
          if t.name != name then .error .catalog
          else (append t new).map fun t => (rest.put t, t.rows.length) := by
  rw [load]
  cases sameName name stagingName with
  | true => rfl
  | false =>
      simp only [Bool.false_eq_true, if_false]
      generalize (if replace then d.drop name else d) = rest
      cases rest.table? name with
      | none => rfl
      | some t =>
          dsimp only
          cases t.name != name with
          | true => rfl
          | false => cases append t (Csv.toTable name data) <;> rfl

/-- After a load the database has the table under the name of the load, with as many rows as were
reported. -/
theorem exists_table?_of_load {d d' : Database} {replace : Bool} {name : String} {data : Csv.Data}
    {n : Nat} (h : d.load replace name data = .ok (d', n)) :
    ∃ t, d'.table? name = some t ∧ t.name = name ∧ t.rows.length = n := by
  rw [load_eq] at h
  dsimp only at h
  generalize (if replace = true then d.drop name else d) = rest at h
  split_ifs at h
  split at h
  · cases h
    exact ⟨_, table?_put _ (Csv.toTable name data), rfl, rfl⟩
  · next t _ =>
      split_ifs at h with hname
      have ht : t.name = name := by simpa using hname
      obtain ⟨t', happend, heq⟩ := map_eq_ok_iff.1 h
      cases heq
      have ht' : t'.name = name := (name_of_append happend).trans ht
      exact ⟨t', ht' ▸ table?_put _ t', ht', rfl⟩

end Database

namespace Evaluate

theorem findTable_singleton_eq_ok_iff {catalog : String} {d : Database} {name : String}
    {t : TableData} : findTable catalog d [name] = .ok t ↔ d.table? name = some t := by
  simp only [findTable]
  cases d.table? name with
  | none => simp
  | some u => simp

end Evaluate

namespace DatabaseFile

/-- The file that a load wrote holds the table under the name of the load. -/
theorem exists_table?_of_load {files files' : Files} {path : String} {replace : Bool}
    {name : String} {source : Except Failure String} {n : Nat}
    (h : load files path replace name source = (.ok n, files')) :
    ∃ d t, openAt files' path = .ok d ∧ d.table? name = some t ∧ t.name = name ∧
      t.rows.length = n := by
  have hopen : ∀ d, openAt (files.put (Path.ofText path) (.database d)) path = .ok d := by
    intro d
    have hhas : (files.put (Path.ofText path) (.database d)).has (Path.ofText path) = true := by
      simp [Files.put, Files.has, Path.isWithin]
    rw [openAt]
    simp only [hhas, Files.find?_put_self]
    rfl
  rw [load] at h
  split_ifs at h
  · cases h
  · split at h
    · cases h
    · dsimp only at h
      split at h
      · cases h
      · split at h
        · cases h
        · split at h
          · cases h
          · next hload =>
              cases h
              obtain ⟨t, ht, hname, hlength⟩ := Database.exists_table?_of_load hload
              exact ⟨_, t, hopen _, ht, hname, hlength⟩

/-- A safe request quotes the name of a table without its line break. That is how a load quotes it,
and what the request finds is what was loaded, exactly when the name has none. -/
theorem quotes_iff {name : String} (h : Database.isTableName name = true) :
    ∃ i, (∀ field, Identifier.read field name = .ok i) ∧
      i.quoted = Database.quotedName (trim name) ∧
      (i.quoted = Database.quotedName name ↔ endsWith "\n" name = false) ∧
      ∀ {files files' : Files} {path : String} {replace : Bool} {source : Except Failure String}
        {n : Nat}, load files path replace name source = (.ok n, files') →
        ∃ d t, openAt files' path = .ok d ∧ t ∈ d.tables ∧ t.name = name ∧ t.rows.length = n ∧
          ∀ r stmt catalog, r.table = name → Sql.compile .safe r = .ok stmt →
            ∃ p, Plan.ofStatement? stmt = some p ∧
              (Evaluate.findTable catalog d p.table = .ok t ↔ endsWith "\n" name = false) := by
  obtain ⟨hname, hread⟩ := Identifier.exists_read_of_isTableName h
  refine ⟨Identifier.ofName (trim name) hname, hread, Identifier.quoted_ofName hname, ?_, ?_⟩
  · rw [Identifier.quoted_ofName, Database.quotedName_injective.eq_iff,
      Identifier.trim_eq_self_iff h]
  · intro files files' path replace source n hload
    obtain ⟨d, t, hopen, htable, ht, hlength⟩ := exists_table?_of_load hload
    refine ⟨d, t, hopen, List.mem_of_find?_eq_some htable, ht, hlength, ?_⟩
    intro r stmt catalog hr hstmt
    obtain ⟨s, hs, hplan⟩ := Plan.exists_ofSelect_of_compile hstmt
    obtain ⟨-, hbase, -⟩ := Select.ofRequest_eq_ok_iff.1 hs
    rw [hr, hread, Except.ok.injEq] at hbase
    have htrimmed : (Plan.ofSelect s).table = [trim name] := by
      rw [Plan.ofSelect, ← hbase]
      exact Relational.nameOf_ofName hname
    refine ⟨_, hplan, ?_⟩
    rw [htrimmed, Evaluate.findTable_singleton_eq_ok_iff, ← Identifier.trim_eq_self_iff h]
    constructor
    · intro hfound
      have hsame := Database.sameName_of_table? hfound
      rw [ht] at hsame
      exact Identifier.trim_eq_self_of_sameName h hsame
    · intro htrim
      rw [htrim, htable]

/-- The staff are loaded into a table of their own and found there. -/
theorem quotes_staff :
    Database.isTableName "staff" = true ∧
      ∃ files' d t stmt p,
        load ⟨[]⟩ "play.duckdb" false "staff" (.ok "id,name\n1,Ann\n") = (.ok 1, files') ∧
        Sql.compile .safe ⟨"relational", "staff", none, [], none, none, none, none, none⟩ =
          .ok stmt ∧
        stmt.sql = "SELECT * FROM " ++ Database.quotedName "staff" ∧
        openAt files' "play.duckdb" = .ok d ∧ t.rows.length = 1 ∧
        Plan.ofStatement? stmt = some p ∧ Evaluate.findTable "play" d p.table = .ok t := by
  have hname : Database.isTableName "staff" = true := by decide
  obtain ⟨-, -, -, -, hload⟩ := quotes_iff hname
  obtain ⟨files', hfiles⟩ : ∃ files', load ⟨[]⟩ "play.duckdb" false "staff"
      (.ok "id,name\n1,Ann\n") = (.ok 1, files') := ⟨_, rfl⟩
  obtain ⟨d, t, hopen, -, -, hlength, hfound⟩ := hload hfiles
  obtain ⟨stmt, hstmt, hsql⟩ : ∃ stmt, Sql.compile .safe
      ⟨"relational", "staff", none, [], none, none, none, none, none⟩ = .ok stmt ∧
      stmt.sql = "SELECT * FROM " ++ Database.quotedName "staff" := ⟨_, rfl, by decide⟩
  obtain ⟨p, hplan, hfind⟩ := hfound _ stmt "play" rfl hstmt
  exact ⟨hname, files', d, t, stmt, p, hfiles, hstmt, hsql, hopen, hlength, hplan,
    hfind.2 (by decide)⟩

/-- With a line break in its name the table is loaded as well, but a request for that name is for
another table, which is missing. -/
theorem not_quotes_staff :
    ∃ files' i,
      load ⟨[]⟩ "play.duckdb" false "staff\n" (.ok "id,name\n1,Ann\n") = (.ok 1, files') ∧
      Identifier.read "table" "staff\n" = .ok i ∧ i.quoted = "\"staff\"" ∧
      i.quoted ≠ Database.quotedName "staff\n" ∧
      query .safe files' (some "play.duckdb")
        ⟨"relational", "staff\n", none, [], none, none, none, none, none⟩ =
          .error (.database .catalog) :=
  ⟨_, _, rfl, rfl, by decide, by decide, rfl⟩

end DatabaseFile

end TableQuery
