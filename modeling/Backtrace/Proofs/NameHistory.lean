import Backtrace.Debugger.Sample

/-!
# What a symbol table remembers

A symbol table comes about in two ways: entries are collected all at once, or names are inserted
one after the other.  Either way the table keeps the last name of each address and nothing else.
Neither the order in which addresses came nor a name that was replaced leaves a trace, not even in
the list of bindings, which is all that a table is made of.

Main results:

- Theorem `name?_insertAll`: after some insertions an address has the name of its last entry, or
  else the name it had before.
- Theorem `name?_ofList`: an address of a collected table has the name of its last entry.
- Theorem `ofList_eq_insertAll`: collecting entries comes to the same as inserting them one by one.
- Theorem `bindings_ofList`: the bindings of a collected table are its last entries.
- Theorem `extensional`: a table is no more than the map from each address to its last name.
-/

namespace Backtrace

namespace SymbolTable

/-! ## The last entry for an address -/

/-- The last entry of `history` for `address` says that the function there is called `name`. -/
def Names (history : List Binding) (address : Address) (name : String) : Prop :=
  ∃ earlier later, history = earlier ++ (address, name) :: later ∧
    ∀ entry ∈ later, entry.1 ≠ address

theorem not_names_nil (address : Address) (name : String) : ¬ Names [] address name := by
  rintro ⟨earlier, later, hhistory, -⟩
  simp at hhistory

/-- An entry counts only where there is no later one for its address. -/
theorem names_cons_iff (entry : Binding) {history : List Binding} {address : Address}
    {name : String} :
    Names (entry :: history) address name ↔
      Names history address name ∨
        (entry = (address, name) ∧ ∀ other ∈ history, other.1 ≠ address) := by
  constructor
  · rintro ⟨earlier, later, hhistory, hlater⟩
    rcases earlier with _ | ⟨first, earlier⟩
    · rw [List.nil_append, List.cons.injEq] at hhistory
      rcases hhistory with ⟨rfl, rfl⟩
      exact Or.inr ⟨rfl, hlater⟩
    · rw [List.cons_append, List.cons.injEq] at hhistory
      exact Or.inl ⟨earlier, later, hhistory.2, hlater⟩
  · rintro (⟨earlier, later, rfl, hlater⟩ | ⟨rfl, hlater⟩)
    · exact ⟨entry :: earlier, later, rfl, hlater⟩
    · exact ⟨[], history, rfl, hlater⟩

/-- Only the entries for an address matter for its name. -/
theorem names_iff_getLast? {history : List Binding} {address : Address} {name : String} :
    Names history address name ↔
      (history.filter (·.1 = address)).getLast? = some (address, name) := by
  induction history with
  | nil => simpa using not_names_nil address name
  | cons entry history ih =>
    have hnone : (history.filter (·.1 = address)).getLast? = none ↔
        ∀ other ∈ history, other.1 ≠ address := by simp
    rw [names_cons_iff, ih, ← hnone, List.filter_cons]
    by_cases hsame : entry.1 = address
    · rw [if_pos (by simpa using hsame), List.getLast?_cons]
      cases (history.filter (·.1 = address)).getLast? <;> simp
    · have hother : entry ≠ (address, name) := by
        rintro rfl
        exact hsame rfl
      rw [if_neg (by simpa using hsame)]
      simp [hother]

/-- The last entry for an address is one of the entries. -/
theorem Names.mem {history : List Binding} {address : Address} {name : String}
    (hnames : Names history address name) : (address, name) ∈ history := by
  rcases hnames with ⟨earlier, later, rfl, -⟩
  exact List.mem_append_right earlier List.mem_cons_self

/-- There is a last entry for an address exactly when there is one at all. -/
theorem exists_names_iff {history : List Binding} {address : Address} :
    (∃ name, Names history address name) ↔ ∃ entry ∈ history, entry.1 = address := by
  constructor
  · rintro ⟨name, hnames⟩
    exact ⟨(address, name), hnames.mem, rfl⟩
  · rintro ⟨entry, hentry, hsame⟩
    have hmem : entry ∈ history.filter (·.1 = address) :=
      List.mem_filter.mpr ⟨hentry, by simpa using hsame⟩
    cases hlast : (history.filter (·.1 = address)).getLast? with
    | none =>
      rw [List.getLast?_eq_none_iff.mp hlast] at hmem
      cases hmem
    | some last =>
      have hlast' := (List.mem_filter.mp (List.mem_of_getLast? hlast)).2
      rw [decide_eq_true_eq] at hlast'
      refine ⟨last.2, names_iff_getLast?.mpr ?_⟩
      rw [hlast, ← hlast']

/-! ## Inserting one by one -/

/-- The table after some insertions. -/
def insertAll (table : SymbolTable) (entries : List Binding) : SymbolTable :=
  entries.foldl (fun table entry => table.insert entry.1 entry.2) table

@[simp] theorem insertAll_cons (table : SymbolTable) (entry : Binding) (entries : List Binding) :
    table.insertAll (entry :: entries) = (table.insert entry.1 entry.2).insertAll entries := rfl

theorem insertAll_concat (table : SymbolTable) (entries : List Binding) (entry : Binding) :
    table.insertAll (entries ++ [entry]) = (table.insertAll entries).insert entry.1 entry.2 :=
  List.foldl_append

/-- An address has the name of its last entry, or else the name it had before. -/
theorem name?_insertAll (table : SymbolTable) (entries : List Binding) (address : Address)
    (name : String) :
    (table.insertAll entries).name? address = some name ↔
      Names entries address name ∨
        ((∀ entry ∈ entries, entry.1 ≠ address) ∧ table.name? address = some name) := by
  induction entries generalizing table with
  | nil => simp [insertAll, not_names_nil]
  | cons entry entries ih =>
    rw [insertAll_cons, ih, names_cons_iff, name?_insert]
    by_cases hsame : entry.1 = address
    · have hentry : entry = (address, name) ↔ entry.2 = name := by
        rw [Prod.ext_iff]
        simp [hsame]
      simp [hsame, hentry, and_comm]
    · have hentry : entry ≠ (address, name) := by
        rintro rfl
        exact hsame rfl
      simp [hsame, hentry]

/-- Names of different addresses can be inserted in any order. -/
theorem insert_comm (table : SymbolTable) {first second : Address} (hapart : first ≠ second)
    (name other : String) :
    (table.insert first name).insert second other =
      (table.insert second other).insert first name := by
  apply ext_name?
  intro address
  simp only [name?_insert]
  by_cases hfirst : first = address
  · have hsecond : second ≠ address := fun hsecond => hapart (hfirst.trans hsecond.symm)
    simp [hfirst, hsecond]
  · simp [hfirst]

/-! ## Collecting all at once -/

theorem inOrder_trans (first second third : Binding) (hfirst : inOrder first second = true)
    (hsecond : inOrder second third = true) : inOrder first third = true := by
  simp only [inOrder, decide_eq_true_eq] at hfirst hsecond ⊢
  exact UInt32.le_trans hfirst hsecond

theorem inOrder_total (first second : Binding) :
    (inOrder first second || inOrder second first) = true := by
  simpa [inOrder] using UInt32.le_total first.1 second.1

/-- Sorting by address leaves the entries for one address in their order. -/
theorem filter_mergeSort (history : List Binding) (address : Address) :
    (history.mergeSort inOrder).filter (·.1 = address) = history.filter (·.1 = address) := by
  have htied : (history.filter (·.1 = address)).Pairwise
      (fun first second => inOrder first second = true) := by
    apply List.pairwise_of_forall_mem_list
    intro first hfirst second hsecond
    have hfirst' := (List.mem_filter.mp hfirst).2
    have hsecond' := (List.mem_filter.mp hsecond).2
    rw [decide_eq_true_eq] at hfirst' hsecond'
    simp [inOrder, hfirst', hsecond']
  have hsublist : (history.filter (·.1 = address)).Sublist
      ((history.mergeSort inOrder).filter (·.1 = address)) := by
    simpa using (List.sublist_mergeSort inOrder_trans inOrder_total htied
      List.filter_sublist).filter (·.1 = address)
  have hlength := ((List.mergeSort_perm history inOrder).filter (·.1 = address)).length_eq
  exact (hsublist.eq_of_length hlength.symm).symm

/-- In a list that is in order, a new address is above all that come later. -/
theorem lt_of_inOrder {first second : Binding} {rest : List Binding}
    (horder : (first :: second :: rest).Pairwise
      (fun first second => inOrder first second = true))
    (hother : first.1 ≠ second.1) : ∀ other ∈ second :: rest, first.1 < other.1 := by
  simp only [List.pairwise_cons, inOrder, decide_eq_true_eq] at horder
  rcases horder with ⟨hfirst, hsecond, -⟩
  have hlt : first.1 < second.1 :=
    UInt32.lt_of_le_of_ne (hfirst second List.mem_cons_self) hother
  intro other hmem
  rcases List.mem_cons.mp hmem with rfl | hmem
  · exact hlt
  · exact UInt32.lt_of_lt_of_le hlt (hsecond other hmem)

/-- In a list that is in order, exactly the last entries are kept. -/
theorem mem_keepLast_iff {entries : List Binding} {address : Address} {name : String}
    (horder : entries.Pairwise (fun first second => inOrder first second = true)) :
    (address, name) ∈ keepLast entries ↔ Names entries address name := by
  fun_induction keepLast entries with
  | case1 => simp [not_names_nil]
  | case2 entry => simp [names_cons_iff, not_names_nil, eq_comm]
  | case3 first second rest hsame ih =>
    rw [ih horder.of_cons, names_cons_iff first]
    constructor
    · exact Or.inl
    · rintro (hnames | ⟨rfl, hnone⟩)
      · exact hnames
      · exact absurd hsame.symm (hnone second List.mem_cons_self)
  | case4 first second rest hother ih =>
    have hnone : first = (address, name) → ∀ other ∈ second :: rest, other.1 ≠ address := by
      rintro rfl other hmem hsame
      have hlt := lt_of_inOrder horder hother other hmem
      rw [hsame] at hlt
      exact UInt32.lt_irrefl address hlt
    rw [List.mem_cons, ih horder.of_cons, names_cons_iff first]
    constructor
    · rintro (hfirst | hnames)
      · exact Or.inr ⟨hfirst.symm, hnone hfirst.symm⟩
      · exact Or.inl hnames
    · rintro (hnames | ⟨hfirst, -⟩)
      · exact Or.inr hnames
      · exact Or.inl hfirst.symm

/-- What is kept is in order, and no address is in it twice. -/
theorem pairwise_keepLast {entries : List Binding}
    (horder : entries.Pairwise (fun first second => inOrder first second = true)) :
    (keepLast entries).Pairwise (fun first second => first.1 < second.1) := by
  fun_induction keepLast entries with
  | case1 => exact List.Pairwise.nil
  | case2 entry => exact List.pairwise_singleton _ _
  | case3 first second rest hsame ih => exact ih horder.of_cons
  | case4 first second rest hother ih =>
    refine List.Pairwise.cons ?_ (ih horder.of_cons)
    intro other hmem
    have hnames := (mem_keepLast_iff horder.of_cons).mp hmem
    exact lt_of_inOrder horder hother other (Names.mem hnames)

theorem mem_lastEntries_iff {history : List Binding} {address : Address} {name : String} :
    (address, name) ∈ lastEntries history ↔ Names history address name := by
  rw [lastEntries, mem_keepLast_iff (List.pairwise_mergeSort inOrder_trans inOrder_total history),
    names_iff_getLast?, filter_mergeSort, ← names_iff_getLast?]

theorem pairwise_lastEntries (history : List Binding) :
    (lastEntries history).Pairwise (fun first second => first.1 < second.1) :=
  pairwise_keepLast (List.pairwise_mergeSort inOrder_trans inOrder_total history)

/-- An address of a collected table has the name of its last entry. -/
theorem name?_ofList {history : List Binding} {address : Address} {name : String} :
    (ofList history).name? address = some name ↔ Names history address name := by
  have hdistinct : (lastEntries history).Pairwise
      (fun first second => ¬ compare first.1 second.1 = .eq) := by
    refine (pairwise_lastEntries history).imp ?_
    intro first second hlt hsame
    rw [Std.compare_eq_iff_eq.mp hsame] at hlt
    exact UInt32.lt_irrefl _ hlt
  have hnamed : ∀ {name}, Names history address name →
      (ofList history).name? address = some name := by
    intro name hnames
    exact Std.ExtTreeMap.getElem?_ofList_of_mem Std.ReflCmp.compare_self hdistinct
      (mem_lastEntries_iff.mpr hnames)
  refine ⟨?_, hnamed⟩
  intro hname
  by_cases hsome : ∃ other, Names history address other
  · rcases hsome with ⟨other, hother⟩
    rw [hnamed hother, Option.some.injEq] at hname
    rwa [← hname]
  · have hnone : ((lastEntries history).map Prod.fst).contains address = false := by
      rw [List.contains_eq_mem, decide_eq_false_iff_not, List.mem_map]
      rintro ⟨⟨place, other⟩, hmem, rfl⟩
      exact hsome ⟨other, mem_lastEntries_iff.mp hmem⟩
    have hunnamed : (ofList history).name? address = none :=
      Std.ExtTreeMap.getElem?_ofList_of_contains_eq_false hnone
    rw [hunnamed] at hname
    cases hname

/-- An address of a collected table has no name when there is no entry for it. -/
theorem name?_ofList_eq_none_iff {history : List Binding} {address : Address} :
    (ofList history).name? address = none ↔ ∀ entry ∈ history, entry.1 ≠ address := by
  have hnone : (∀ name, ¬ Names history address name) ↔ ∀ entry ∈ history, entry.1 ≠ address := by
    rw [← not_exists, exists_names_iff]
    simp only [not_exists, not_and, ne_eq]
  rw [Option.eq_none_iff_forall_ne_some, ← hnone]
  exact forall_congr' fun name => not_congr name?_ofList

/-- Collecting entries comes to the same as inserting them one by one. -/
theorem ofList_eq_insertAll (entries : List Binding) :
    ofList entries = empty.insertAll entries := by
  apply ext_name?
  intro address
  apply Option.ext
  intro name
  rw [name?_ofList, name?_insertAll, name?_empty, or_iff_left (by simp)]

/-- Collected entries and later insertions are one history. -/
theorem insertAll_ofList (entries inserted : List Binding) :
    (ofList entries).insertAll inserted = ofList (entries ++ inserted) := by
  rw [ofList_eq_insertAll, ofList_eq_insertAll, insertAll, insertAll, insertAll,
    List.foldl_append]

/-! ## Bindings -/

/-- What a table is made of: its bindings, by ascending address. -/
def bindings (table : SymbolTable) : List Binding := table.names.toList

theorem mem_bindings_iff {table : SymbolTable} {address : Address} {name : String} :
    (address, name) ∈ table.bindings ↔ table.name? address = some name :=
  Std.ExtTreeMap.mem_toList_iff_getElem?_eq_some

/-- No address is bound twice, and bindings are in order. -/
theorem pairwise_bindings (table : SymbolTable) :
    table.bindings.Pairwise (fun first second => first.1 < second.1) := by
  refine List.Pairwise.imp ?_ Std.ExtTreeMap.ordered_keys_toList
  intro first second horder
  exact Std.compare_eq_lt.mp horder

/-- Tables are equal when their lists of bindings are. -/
theorem eq_iff_bindings_eq {first second : SymbolTable} :
    first = second ↔ first.bindings = second.bindings := by
  cases first
  cases second
  simp [bindings, Std.ExtTreeMap.toList_inj]

/-- Tables are equal when they name every address alike. -/
theorem eq_iff_name?_eq {first second : SymbolTable} :
    first = second ↔ ∀ address, first.name? address = second.name? address :=
  ⟨fun hsame address => congrArg (fun table => table.name? address) hsame, ext_name?⟩

/-- Lists in strictly ascending order are equal when they have the same members. -/
theorem eq_of_mem_iff {bindings others : List Binding}
    (hbindings : bindings.Pairwise (fun first second => first.1 < second.1))
    (hothers : others.Pairwise (fun first second => first.1 < second.1))
    (hmem : ∀ binding, binding ∈ bindings ↔ binding ∈ others) : bindings = others := by
  have hnodup : ∀ {list : List Binding},
      list.Pairwise (fun first second => first.1 < second.1) → list.Nodup := by
    intro list hlist
    refine hlist.imp ?_
    rintro first second hlt rfl
    exact UInt32.lt_irrefl _ hlt
  refine List.Perm.eq_of_pairwise ?_ hbindings hothers
    ((List.perm_ext_iff_of_nodup (hnodup hbindings) (hnodup hothers)).mpr hmem)
  intro first second _ _ hlt hgt
  exact absurd hgt (UInt32.lt_asymm hlt)

/-- The bindings of a collected table are its last entries. -/
theorem bindings_ofList (history : List Binding) :
    (ofList history).bindings = lastEntries history := by
  refine eq_of_mem_iff (pairwise_bindings _) (pairwise_lastEntries history) ?_
  rintro ⟨address, name⟩
  rw [mem_bindings_iff, name?_ofList, mem_lastEntries_iff]

/-- A table is no more than the map from each address to the last name in its history.  Inserting a
name tells the one that it replaces and changes nothing else; collecting entries is inserting them
one by one, and also sorting them and keeping the last one for each address; and tables are equal
when they name every address alike, however they came about. -/
theorem extensional (entries inserted : List Binding) :
    let table := (ofList entries).insertAll inserted
    (∀ address name,
      table.name? address = some name ↔ Names (entries ++ inserted) address name) ∧
    (∀ address,
      table.name? address = none ↔ ∀ entry ∈ entries ++ inserted, entry.1 ≠ address) ∧
    (∀ address name, ∃ changed, table.replace address name = (table.name? address, changed) ∧
      changed = (ofList entries).insertAll (inserted ++ [(address, name)]) ∧
      changed.name? address = some name ∧
      ∀ other, other ≠ address → changed.name? other = table.name? other) ∧
    ofList entries = empty.insertAll entries ∧
    table.bindings = lastEntries (entries ++ inserted) ∧
    (∀ first second name other, first ≠ second →
      (table.insert first name).insert second other =
        (table.insert second other).insert first name) ∧
    ∀ others inserted', let table' := (ofList others).insertAll inserted'
      (table = table' ↔ ∀ address, table.name? address = table'.name? address) ∧
      (table = table' ↔ table.bindings = table'.bindings) := by
  intro table
  have hhistory : table = ofList (entries ++ inserted) := insertAll_ofList entries inserted
  refine ⟨?_, ?_, ?_, ofList_eq_insertAll entries, ?_, ?_, ?_⟩
  · intro address name
    rw [hhistory, name?_ofList]
  · intro address
    rw [hhistory, name?_ofList_eq_none_iff]
  · intro address name
    refine ⟨table.insert address name, Prod.ext (table.fst_replace address name) rfl, ?_, ?_, ?_⟩
    · rw [insertAll_concat]
    · rw [name?_insert, if_pos rfl]
    · intro other hother
      rw [name?_insert, if_neg hother.symm]
  · rw [hhistory, bindings_ofList]
  · intro first second name other hapart
    exact table.insert_comm hapart name other
  · intro others inserted'
    exact ⟨eq_iff_name?_eq, eq_iff_bindings_eq⟩

/-- Collecting a name for `main` twice and renaming `helper` later comes to the same table as
inserting the two last names the other way round. -/
theorem extensional_renamed :
    let table := (ofList [(0x00100000, "start"), (0x00100024, "helper"),
      (0x00100000, "main")]).insertAll [(0x00100024, "aid")]
    table.name? 0x00100000 = some "main" ∧ table.name? 0x00100004 = none ∧
      (table.replace 0x00100024 "help").1 = some "aid" ∧
      (0x00100000 : Address) ≠ 0x00100024 ∧
      (table.insert 0x00100000 "m").insert 0x00100024 "h" =
        (table.insert 0x00100024 "h").insert 0x00100000 "m" ∧
      table = (ofList [(0x00100024, "aid")]).insertAll [(0x00100000, "main")] := by
  intro table
  rcases extensional [(0x00100000, "start"), (0x00100024, "helper"), (0x00100000, "main")]
    [(0x00100024, "aid")] with ⟨hsome, hnone, hreplace, -, -, hcomm, hequal⟩
  have hmain := (hsome 0x00100000 "main").mpr ⟨[_, _], [_], rfl, by decide⟩
  have haid := (hsome 0x00100024 "aid").mpr ⟨[_, _, _], [], rfl, by decide⟩
  have hapart : (0x00100000 : Address) ≠ 0x00100024 := by decide
  have hreplaced : (table.replace 0x00100024 "help").1 = some "aid" := by
    rcases hreplace 0x00100024 "help" with ⟨changed, hreplace, -⟩
    rw [hreplace, haid]
  refine ⟨hmain, (hnone 0x00100004).mpr (by decide), hreplaced, hapart,
    hcomm _ _ "m" "h" hapart, ?_⟩
  apply ((hequal _ _).1).mpr
  intro address
  simp only [ofList_eq_insertAll, insertAll, List.foldl_cons, List.foldl_nil, name?_insert]
  by_cases hhelper : 0x00100024 = address
  · subst hhelper
    simp
  · by_cases hmain : 0x00100000 = address
    · simp [hhelper, hmain]
    · simp [hhelper, hmain]

end SymbolTable

/-! ## The names of the sample image -/

namespace Debugger

namespace Sample

/-- The two functions are named, and nothing else is. -/
theorem name?_symbols (address : Address) :
    symbols.name? address =
      if helperEntry = address then some "helper"
      else if mainEntry = address then some "main" else none := by
  simp [symbols, SymbolTable.ofList_eq_insertAll, SymbolTable.insertAll, SymbolTable.name?_insert]

end Sample

end Debugger

end Backtrace
