import Backtrace.Proofs.NameHistory
import Backtrace.Row
import Backtrace.Walk
import Mathlib.Data.List.Forall2
import Mathlib.Data.Nat.Digits.Defs

/-!
# What rows tell

The rows of a call stack can be read back.  The columns of a row spell the two addresses of its
frame in full, and its target is the start of the function once more.  A name only comes behind
that, so it can neither hide nor imitate an address, whatever characters it is made of.  The single
row of a call stack without frames is not to be mistaken for the row of a frame.

Main results:

- Theorem `Hex.spells_ofWord`: a column spells its word.
- Theorem `Row.shows_ofFrame`: the row of a frame shows the frame, and its name if it has one.
- Theorem `Row.unavailable_ne_ofFrame`: no row of a frame reads like the row of no frame.
- Theorem `CallStack.rows_faithful`: all of this for whole call stacks, which differ in their rows
  when they differ in their frames.
-/

namespace Backtrace

/-! ## Columns -/

namespace Hex

/-- The sixteen upper-case digits, by value. -/
def upperDigits : List Char :=
  ['0', '1', '2', '3', '4', '5', '6', '7', '8', '9', 'A', 'B', 'C', 'D', 'E', 'F']

/-- `text` is `0x` and eight upper-case digits, most significant first, that make up `word`. -/
def Spells (text : List Char) (word : Word) : Prop :=
  ∃ (digits : List Char) (values : List Nat), text = '0' :: 'x' :: digits ∧
    List.Forall₂ (fun c v => upperDigits[v]? = some c) digits values ∧ values.length = 8 ∧
    Nat.ofDigits 16 values.reverse = word.toNat

/-- A digit is written for its value. -/
theorem getElem?_upperDigits (n : Nat) : upperDigits[n % 16]? = some (digit .upper n) := by
  have heach : ∀ m < 16, upperDigits[m]? = some (digit .upper m) := by decide
  have hdigit : digit .upper n = digit .upper (n % 16) := by simp [digit]
  rw [hdigit]
  exact heach (n % 16) (Nat.mod_lt n (by decide))

/-- The digits of a number make up its remainder. -/
theorem exists_values (count n : Nat) :
    ∃ values, List.Forall₂ (fun c v => upperDigits[v]? = some c) (digits .upper count n) values ∧
      values.length = count ∧ Nat.ofDigits 16 values.reverse = n % Nat.pow 16 count := by
  induction count generalizing n with
  | zero => exact ⟨[], .nil, rfl, (Nat.mod_one n).symm⟩
  | succ count ih =>
    rcases ih (n / 16) with ⟨values, hdigits, hlength, hvalue⟩
    refine ⟨values ++ [n % 16], ?_, by simp [hlength], ?_⟩
    · exact List.rel_append hdigits (.cons (getElem?_upperDigits n) .nil)
    · have hpow : Nat.pow 16 (count + 1) = 16 * Nat.pow 16 count := Nat.mul_comm _ _
      rw [List.reverse_concat, Nat.ofDigits_cons, hvalue, hpow, Nat.mod_mul]

/-- A word with its marker spells the word. -/
theorem spells_ofWord (word : Word) : Spells (ofWord .upper word).toList word := by
  have hbound : word.toNat < Nat.pow 16 8 := word.toNat_lt
  rcases exists_values 8 word.toNat with ⟨values, hdigits, hlength, hvalue⟩
  refine ⟨digits .upper 8 word.toNat, values, ?_, hdigits, hlength, ?_⟩
  · rw [ofWord, String.toList_ofList]
  · rw [hvalue, Nat.mod_eq_of_lt hbound]

/-- A digit has one value. -/
theorem rightUnique_upperDigits :
    Relator.RightUnique fun (c : Char) (v : Nat) => upperDigits[v]? = some c := by
  intro c v v' hv hv'
  have hlt : v < upperDigits.length := (List.getElem?_eq_some_iff.mp hv).1
  have hnodup : upperDigits.Nodup := by decide
  exact (List.getElem?_inj hlt hnodup).mp (hv.trans hv'.symm)

/-- A text spells one word at most. -/
theorem Spells.word_eq {text : List Char} {word other : Word} (hword : Spells text word)
    (hother : Spells text other) : word = other := by
  rcases hword with ⟨digits, values, htext, hvalues, -, hsum⟩
  rcases hother with ⟨digits', values', htext', hvalues', -, hsum'⟩
  have hdigits : digits = digits' := by simpa [htext] using htext'
  have hsame : values = values' :=
    List.right_unique_forall₂' rightUnique_upperDigits hvalues (hdigits ▸ hvalues')
  apply UInt32.toNat_inj.mp
  rw [← hsum, ← hsum', hsame]

end Hex

/-! ## Rows of frames -/

namespace Row

/-- `row` shows `frame`, and the name of its function if it has one: `plain` is what the row would
be without names. -/
structure Shows (row plain : Row) (frame : Frame) (name? : Option String) : Prop where
  entry : Hex.Spells (row.function.toList.take 10) frame.entry
  returnAddress : Hex.Spells row.caller.toList frame.returnAddress
  target : row.target = some frame.entry
  named : ∀ name, row.function = plain.function ++ " (" ++ name ++ ")" ↔ name? = some name
  unnamed : row.function = plain.function ↔ name? = none

/-- What the function column has behind the address. -/
def nameText : Option String → List Char
  | none => []
  | some name => ' ' :: '(' :: (name.toList ++ [')'])

/-- Different names read differently, and each differs from no name. -/
theorem nameText_inj {name? other? : Option String} :
    nameText name? = nameText other? ↔ name? = other? := by
  cases name? with
  | none => cases other? <;> simp [nameText]
  | some name =>
    cases other? with
    | none => simp [nameText]
    | some other => simp [nameText, String.toList_inj]

/-- The function column is the address, and then the name. -/
theorem toList_functionText (entry : Address) (name? : Option String) :
    (functionText entry name?).toList = (Hex.ofWord .upper entry).toList ++ nameText name? := by
  cases name? with
  | none => rw [functionText, nameText, List.append_nil]
  | some name => simp [functionText, nameText]

/-- The function column begins with the address. -/
theorem take_functionText (entry : Address) (name? : Option String) :
    (functionText entry name?).toList.take 10 = (Hex.ofWord .upper entry).toList := by
  have hlength : (Hex.ofWord .upper entry).toList.length = 10 := by
    rw [String.length_toList, Hex.length_ofWord]
  rw [toList_functionText, List.take_left' hlength]

/-- The function columns of one function are the same when its names are. -/
theorem functionText_inj (entry : Address) (name? other? : Option String) :
    functionText entry name? = functionText entry other? ↔ name? = other? := by
  rw [← String.toList_inj, toList_functionText, toList_functionText, List.append_cancel_left_eq,
    nameText_inj]

/-- The row of a frame shows the frame. -/
theorem shows_ofFrame (name? : Address → Option String) (frame : Frame) :
    (ofFrame name? frame).Shows (ofFrame (fun _ => none) frame) frame (name? frame.entry) where
  entry := by
    change Hex.Spells ((functionText frame.entry (name? frame.entry)).toList.take 10) frame.entry
    rw [take_functionText]
    exact Hex.spells_ofWord frame.entry
  returnAddress := Hex.spells_ofWord frame.returnAddress
  target := target_ofFrame name? frame
  named := fun name => functionText_inj frame.entry (name? frame.entry) (some name)
  unnamed := functionText_inj frame.entry (name? frame.entry) none

/-- Rows of different frames differ, whatever names they come with. -/
theorem frame_eq_of_ofFrame_eq {name? other? : Address → Option String} {frame other : Frame}
    (hrows : ofFrame name? frame = ofFrame other? other) : frame = other := by
  have hshows := shows_ofFrame name? frame
  have hother := shows_ofFrame other? other
  rw [hrows] at hshows
  have hentry := hshows.entry.word_eq hother.entry
  have hreturn := hshows.returnAddress.word_eq hother.returnAddress
  cases frame
  cases other
  cases hentry
  cases hreturn
  rfl

/-- No column of a frame's row reads like that of the row of no frame. -/
theorem unavailable_ne_ofFrame (name? : Address → Option String) (frame : Frame) :
    unavailable.function ≠ (ofFrame name? frame).function ∧
      unavailable.caller ≠ (ofFrame name? frame).caller := by
  have hshows := shows_ofFrame name? frame
  constructor
  · intro hfunction
    rcases hshows.entry with ⟨digits, values, htext, -⟩
    rw [← hfunction] at htext
    simp [unavailable] at htext
  · intro hcaller
    rcases hshows.returnAddress with ⟨digits, values, htext, -⟩
    rw [← hcaller] at htext
    simp [unavailable] at htext

end Row

/-! ## Rows of call stacks -/

namespace CallStack

variable {stack other : CallStack} {name? other? : Address → Option String}

/-- Every row of a call stack with frames is the row of a frame. -/
theorem exists_frame_of_mem_rows {row : Row} (havailable : stack.frames ≠ [])
    (hrow : row ∈ stack.rows name?) : ∃ frame, row = Row.ofFrame name? frame := by
  rw [rows_of_available name? havailable, List.mem_map] at hrow
  rcases hrow with ⟨frame, -, hframe⟩
  exact ⟨frame, hframe.symm⟩

/-- The row of no frame is no row of a call stack with frames. -/
theorem unavailable_not_mem_rows (havailable : stack.frames ≠ []) :
    Row.unavailable ∉ stack.rows name? := by
  intro hrow
  rcases exists_frame_of_mem_rows havailable hrow with ⟨frame, hframe⟩
  exact (Row.unavailable_ne_ofFrame name? frame).1 (congrArg Row.function hframe)

/-- Rows of frames tell the frames. -/
theorem frames_eq_of_map_ofFrame_eq {frames others : List Frame}
    (hrows : frames.map (Row.ofFrame name?) = others.map (Row.ofFrame other?)) :
    frames = others := by
  induction frames generalizing others with
  | nil =>
    rw [List.map_nil, eq_comm, List.map_eq_nil_iff] at hrows
    exact hrows.symm
  | cons frame frames ih =>
    cases others with
    | nil => simp at hrows
    | cons other others =>
      rw [List.map_cons, List.map_cons, List.cons.injEq] at hrows
      rw [Row.frame_eq_of_ofFrame_eq hrows.1, ih hrows.2]

/-- Rows of call stacks tell the frames, whatever names they come with. -/
theorem frames_eq_of_rows_eq (hrows : stack.rows name? = other.rows other?) :
    stack.frames = other.frames := by
  by_cases hstack : stack.frames = []
  · by_cases hother : other.frames = []
    · rw [hstack, hother]
    · rw [rows_of_unavailable name? hstack] at hrows
      exact absurd (hrows ▸ List.mem_singleton_self _) (unavailable_not_mem_rows hother)
  · by_cases hother : other.frames = []
    · rw [rows_of_unavailable other? hother] at hrows
      exact absurd (hrows ▸ List.mem_singleton_self _) (unavailable_not_mem_rows hstack)
    · rw [rows_of_available name? hstack, rows_of_available other? hother] at hrows
      exact frames_eq_of_map_ofFrame_eq hrows

/-- The rows of a call stack lose nothing, and names only come on top.  If it has frames, each has a
row, in order, whose columns spell its addresses; with a name behind the first one exactly where the
table has one for that very address.  If it has none, there is one row that leads nowhere, and reads
like no row of a frame.  So the rows of two call stacks with different frames differ, also under
different tables. -/
theorem rows_faithful (stack : CallStack) (symbols : SymbolTable) :
    (stack.frames ≠ [] →
      (stack.rows symbols.name?).length = stack.frames.length ∧
      ∀ i (hi : i < stack.frames.length), ∃ row plain,
        (stack.rows symbols.name?)[i]? = some row ∧
        (stack.rows fun _ => none)[i]? = some plain ∧
        row.Shows plain stack.frames[i] (symbols.name? stack.frames[i].entry)) ∧
    (stack.frames = [] → ∃ row, stack.rows symbols.name? = [row] ∧ row.target = none ∧
      ∀ (other : CallStack) (names : SymbolTable), other.frames ≠ [] →
        ∀ shown ∈ other.rows names.name?,
          row.function ≠ shown.function ∧ row.caller ≠ shown.caller) ∧
    ∀ (other : CallStack) (names : SymbolTable), stack.frames ≠ other.frames →
      stack.rows symbols.name? ≠ other.rows names.name? := by
  refine ⟨?_, ?_, ?_⟩
  · intro havailable
    rw [rows_of_available symbols.name? havailable, rows_of_available (fun _ => none) havailable]
    refine ⟨List.length_map _, ?_⟩
    intro i hi
    refine ⟨Row.ofFrame symbols.name? stack.frames[i], Row.ofFrame (fun _ => none) stack.frames[i],
      ?_, ?_, Row.shows_ofFrame symbols.name? stack.frames[i]⟩
    · rw [List.getElem?_map, List.getElem?_eq_getElem hi, Option.map_some]
    · rw [List.getElem?_map, List.getElem?_eq_getElem hi, Option.map_some]
  · intro hunavailable
    refine ⟨.unavailable, rows_of_unavailable symbols.name? hunavailable, rfl, ?_⟩
    intro other names havailable shown hshown
    rcases exists_frame_of_mem_rows havailable hshown with ⟨frame, rfl⟩
    exact Row.unavailable_ne_ofFrame names.name? frame
  · intro other names hframes hrows
    exact hframes (frames_eq_of_rows_eq hrows)

/-- The two frames of the sample image while its `helper` runs make two rows, of which the first one
names `helper`, and neither reads like the row of a call stack without frames. -/
theorem rows_faithful_running :
    let stack := Machine.unwind ⟨Debugger.Sample.running.read, Mips.classifier⟩ .default
      ⟨0x00100030, 0x001FFFD0, 0x00100014⟩
    let symbols := Debugger.Sample.symbols
    (stack.frames ≠ [] ∧ (stack.rows symbols.name?).length = 2 ∧ ∃ row plain,
      (stack.rows symbols.name?)[0]? = some row ∧ (stack.rows fun _ => none)[0]? = some plain ∧
      row.Shows plain ⟨0x00100024, 0x00100014⟩ (some "helper")) ∧
    (∃ row, (ended .boundaryNotFound).rows symbols.name? = [row] ∧ row.target = none ∧
      ∀ shown ∈ stack.rows symbols.name?,
        row.function ≠ shown.function ∧ row.caller ≠ shown.caller) ∧
    stack.rows symbols.name? ≠ (ended .boundaryNotFound).rows symbols.name? := by
  intro stack symbols
  have hframes : stack.frames = [⟨0x00100024, 0x00100014⟩, ⟨0x00100000, 0x00400000⟩] := by
    decide +kernel
  have havailable : stack.frames ≠ [] := by simp [hframes]
  have hname : symbols.name? 0x00100024 = some "helper" := Debugger.Sample.name?_symbols _
  rcases rows_faithful stack symbols with ⟨hsome, -, hdiffer⟩
  rcases rows_faithful (ended .boundaryNotFound) symbols with ⟨-, hnone, -⟩
  rcases hsome havailable with ⟨hlength, heach⟩
  rcases hnone rfl with ⟨row, hrow, htarget, hapart⟩
  have hfirst := heach 0 (by simp [hframes])
  simp only [hframes, List.getElem_cons_zero, hname] at hfirst
  refine ⟨⟨havailable, ?_, hfirst⟩,
    ⟨row, hrow, htarget, hapart stack symbols havailable⟩, hdiffer _ symbols havailable⟩
  rw [hlength, hframes]
  rfl

end CallStack

end Backtrace
