import Backtrace.Proofs.Decoding
import Backtrace.Proofs.LostStackPointer
import Backtrace.Proofs.StandardFunction

/-!
# Arithmetic that writes the stack pointer

An add-immediate leaves its sum in its second register, and register arithmetic leaves its result in
its destination.  When that register is the stack pointer, a walk has to know how far the stack
pointer has moved, or that it cannot know.  The classifier says one or the other of every such word
but one kind: an add-immediate that takes the stack pointer from another register, as functions with
a frame pointer do when they return, reads as an unknown word, and a walk goes on across it as if
the stack pointer had stayed where it was.

Main results:

- Theorem `classify_eq_stackAdjust_iff_writes`: the words that are read as a movement are the
  arithmetic writes of the stack pointer without the restores from another register.
- Theorem `exactMovement_map_classify`: the movement of a stretch of code in terms of its words.
- Theorem `unwind_writesStackPointer`: a walk computes the stack pointer of a caller across exactly
  those writes that tell their movement or are such restores, and counts the former in full.
- Theorem `unwind_across_restore`: across a restore it computes a wrong one.
-/

namespace Backtrace

namespace Mips

/-! ## Writes of the stack pointer -/

/-- An add-immediate that takes the stack pointer from another register. -/
structure RestoresStackPointer (word : Word) : Prop where
  hopcode : opcode word ∈ [0x08, 0x09, 0x18, 0x19]
  hrs : rs word ≠ 29
  hrt : rt word = 29

/-- An arithmetic write of the stack pointer, register 29, with the number of bytes that it moves
the stack pointer by, or `none` where the new value comes from other registers.  Adding an immediate
has four operations, and register arithmetic has nine, all told apart by their numbers. -/
inductive WritesStackPointer (word : Word) : Option Int32 → Prop
  /-- An immediate is added to the stack pointer. -/
  | moves {delta : Int32} (hopcode : opcode word ∈ [0x08, 0x09, 0x18, 0x19])
      (hrs : rs word = 29) (hrt : rt word = 29) (hdelta : immediate word = delta) :
    WritesStackPointer word (some delta)
  /-- An immediate is added to another register. -/
  | restores (hrestores : RestoresStackPointer word) : WritesStackPointer word none
  /-- The result of register arithmetic. -/
  | computes (hopcode : opcode word = 0x00)
      (hfunction : function word ∈ [0x20, 0x21, 0x22, 0x23, 0x25, 0x2C, 0x2D, 0x2E, 0x2F])
      (hrd : rd word = 29) : WritesStackPointer word none

/-- How many bytes a word moves the stack pointer by, as far as it adds to the stack pointer. -/
def addedToStackPointer (word : Word) : Int :=
  if opcode word ∈ [0x08, 0x09, 0x18, 0x19] ∧ rs word = 29 ∧ rt word = 29 then
    (immediate word).toInt
  else 0

/-- How many bytes words move the stack pointer by, one after the other. -/
def totalAdded : List Word → Int
  | [] => 0
  | word :: words => addedToStackPointer word + totalAdded words

/-! ## What the classifier says about them -/

/-- The words that are read as a movement of the stack pointer are its arithmetic writes, without
the restores from another register. -/
theorem classify_eq_stackAdjust_iff_writes {word : Word} {delta : Option Int32} :
    classify word = .stackAdjust delta ↔
      WritesStackPointer word delta ∧ ¬ RestoresStackPointer word := by
  rw [classify_eq_iff (by simp)]
  constructor
  · intro hmeans
    cases hmeans with
    | compute hopcode hfunction hrd =>
      refine ⟨.computes hopcode hfunction hrd, ?_⟩
      intro hrestores
      exact (opcode_of_mem_addImmediate hrestores.hopcode).1 hopcode
    | adjust hopcode hrs hrt hdelta =>
      refine ⟨.moves hopcode hrs hrt hdelta, ?_⟩
      intro hrestores
      exact hrestores.hrs hrs
  · intro hwrites
    rcases hwrites with ⟨hwrites, hnotRestores⟩
    cases hwrites with
    | moves hopcode hrs hrt hdelta => exact .adjust hopcode hrs hrt hdelta
    | restores hrestores => exact absurd hrestores hnotRestores
    | computes hopcode hfunction hrd => exact .compute hopcode hfunction hrd

/-- A restore of the stack pointer from another register is read as an unknown word. -/
theorem classify_of_restoresStackPointer {word : Word} (hrestores : RestoresStackPointer word) :
    classify word = .unknown := by
  rcases hrestores with ⟨hopcode, hrs, hrt⟩
  rcases opcode_of_mem_addImmediate hopcode with ⟨hspecial, hbranch, hjump, hstore⟩
  rw [classify, if_neg hspecial, if_neg hbranch, if_neg hjump, if_neg fun h => hrs h.2.1,
    if_neg fun h => hstore h.1]

/-- The movement that a word is read as is what it adds to the stack pointer. -/
theorem delta_classify (word : Word) : (classify word).delta = addedToStackPointer word := by
  unfold addedToStackPointer
  split
  · next hadds =>
    have hclassify := classify_of_means (.adjust hadds.1 hadds.2.1 hadds.2.2 rfl)
    simp only [hclassify, Instruction.delta]
  · next hnotAdds =>
    unfold Instruction.delta
    split
    · next delta hclassify =>
      cases (classify_eq_stackAdjust_iff_writes.mp hclassify).1 with
      | moves hopcode hrs hrt hdelta => exact absurd ⟨hopcode, hrs, hrt⟩ hnotAdds
    · rfl

/-! ## Words behind code -/

/-- The exact movement of a stretch of code is what its words add to the stack pointer. -/
theorem exactMovement_map_classify (words : List Word) :
    exactMovement (words.map classify) = totalAdded words := by
  induction words with
  | nil => rfl
  | cons word words ih => rw [List.map_cons, exactMovement_cons, delta_classify, ih, totalAdded]

/-- Every word tells its movement, a restore from another register apart, exactly when no
instruction hides its own. -/
theorem told_iff {words : List Word} :
    .stackAdjust none ∉ words.map classify ↔
      ∀ word ∈ words, WritesStackPointer word none → RestoresStackPointer word := by
  rw [List.mem_map]
  constructor
  · intro htold word hword hwrites
    by_cases hrestores : RestoresStackPointer word
    · exact hrestores
    · -- Any other write from other registers is read as one, and its movement is hidden.
      have hclassify := classify_eq_stackAdjust_iff_writes.mpr ⟨hwrites, hrestores⟩
      exact absurd ⟨word, hword, hclassify⟩ htold
  · intro hrestored huntold
    rcases huntold with ⟨word, hword, hclassify⟩
    rcases classify_eq_stackAdjust_iff_writes.mp hclassify with ⟨hwrites, hnotRestores⟩
    exact hnotRestores (hrestored word hword hwrites)

/-- Code that was read is the meaning of the words that stand in memory. -/
theorem exists_words {memory : MemoryView} {places : List Address} {code : List Instruction}
    (hread : places.map (machine memory).instruction? = code.map some) :
    ∃ words : List Word, places.map memory = words.map some ∧ code = words.map classify := by
  induction places generalizing code with
  | nil =>
    rw [List.map_nil, eq_comm, List.map_eq_nil_iff] at hread
    exact ⟨[], rfl, hread⟩
  | cons place places ih =>
    rcases code with _ | ⟨instruction, code⟩
    · simp at hread
    · rw [List.map_cons, List.map_cons, List.cons.injEq] at hread
      rcases ih hread.2 with ⟨words, hwords, rfl⟩
      rcases Option.map_eq_some_iff.mp hread.1 with ⟨word, hword, rfl⟩
      change memory place = some word at hword
      refine ⟨word :: words, ?_, rfl⟩
      rw [List.map_cons, List.map_cons, hword, hwords]

/-! ## Across the writes -/

/-- What an activation moved the stack pointer by, in terms of the words it has executed: where it
returns through a frame, the stack pointer of its caller is known exactly when every word tells its
movement, a restore from another register apart, and is then the exact difference. -/
theorem exists_words_of_saved {memory : MemoryView} {scanDistance : Nat}
    {programCounter stackPointer : Address} {frame : Frame} {callerPointer : Option Address}
    (hinspect : (machine memory).inspect scanDistance programCounter stackPointer =
      .ok (.saved frame callerPointer)) :
    ∃ words : List Word, (slots frame.entry programCounter).map memory = words.map some ∧
      ∀ caller, callerPointer = some caller ↔
        (∀ word ∈ words, WritesStackPointer word none → RestoresStackPointer word) ∧
          (caller.toNat : Int) = stackPointer.toNat - totalAdded words := by
  have hframe : ∃ code,
      (machine memory).Recovers scanDistance programCounter stackPointer frame code := by
    cases Machine.inspect_eq_iff.mp hinspect with
    | callerUnresolved hframe hcaller => exact ⟨_, hframe⟩
    | caller hframe hcaller => exact ⟨_, hframe⟩
  rcases hframe with ⟨code, hframe⟩
  have hshort := hframe.executed.length_le
  have hpointer : callerPointer = callerStackPointer? (movement code) stackPointer := by
    rw [Machine.inspect_of_recovers hframe] at hinspect
    simpa using hinspect.symm
  rcases exists_words hframe.executed.read with ⟨words, hwords, rfl⟩
  refine ⟨words, hwords, ?_⟩
  intro caller
  rw [hpointer, callerStackPointer?_movement hshort, ← told_iff, ← exactMovement_map_classify]
  constructor
  · intro hresolves
    exact ⟨hresolves.told, hresolves.sum_eq⟩
  · intro hresolves
    exact ⟨hresolves.1, hresolves.2⟩

/-- The classifier reads every arithmetic write of the stack pointer as what it does, and nothing
else as such a write, but for one kind: a restore of the stack pointer from another register reads
as an unknown word.  So wherever a walk finds a frame, it computes the stack pointer of the caller
by taking back all that the words of the function have added, and computes none, and ends for that
reason, if a word other than such a restore gave the stack pointer a value from other registers. -/
theorem unwind_writesStackPointer (memory : MemoryView) (limits : Limits)
    (registers : Registers) :
    (∀ word delta, classify word = .stackAdjust delta ↔
      WritesStackPointer word delta ∧ ¬ RestoresStackPointer word) ∧
    (∀ word, RestoresStackPointer word → classify word = .unknown) ∧
    ∀ position ∈ (machine memory).positions limits registers, ∀ frame callerPointer,
      (machine memory).inspect limits.scanDistance position.programCounter
          position.stackPointer = .ok (.saved frame callerPointer) →
        ∃ words : List Word,
          (slots frame.entry position.programCounter).map memory = words.map some ∧
          (∀ caller, callerPointer = some caller ↔
            (∀ word ∈ words, WritesStackPointer word none → RestoresStackPointer word) ∧
              (caller.toNat : Int) = position.stackPointer.toNat - totalAdded words) ∧
          ((∃ word ∈ words, WritesStackPointer word none ∧ ¬ RestoresStackPointer word) →
            ((machine memory).unwind limits registers).termination = .unresolvedStackDelta) := by
  refine ⟨fun _ _ => classify_eq_stackAdjust_iff_writes,
    fun _ => classify_of_restoresStackPointer, ?_⟩
  intro position hposition frame callerPointer hinspect
  rcases exists_words_of_saved hinspect with ⟨words, hwords, hcaller⟩
  refine ⟨words, hwords, hcaller, ?_⟩
  intro huntold
  rcases huntold with ⟨word, hword, hwrites, hnotRestores⟩
  have hnone : callerPointer = none := by
    rw [Option.eq_none_iff_forall_ne_some]
    intro caller hsome
    exact hnotRestores (((hcaller caller).mp hsome).1 word hword hwrites)
  have hlost : (machine memory).CallerLost limits.scanDistance position frame :=
    Machine.callerLost_iff.mpr (hnone ▸ hinspect)
  have hstopped := (machine memory).stopped_unwind limits registers
  exact (hstopped.unresolved_iff.mpr ⟨hposition, Or.inr ⟨frame, hlost⟩⟩).1

/-- In the sample image, `helper` has executed `addiu sp, sp, -16` when it runs, and its caller had
its stack pointer sixteen bytes above. -/
theorem unwind_writesStackPointer_running :
    let memory := Debugger.Sample.running.read
    let registers : Registers := ⟨0x00100030, 0x001FFFD0, 0x00100014⟩
    let helper : Machine.Position := ⟨0x00100030, 0x001FFFD0⟩
    (WritesStackPointer 0x27BDFFF0 (some (-16)) ∧ ¬ RestoresStackPointer 0x27BDFFF0 ∧
      classify 0x27BDFFF0 = .stackAdjust (some (-16))) ∧
    helper ∈ (machine memory).positions .default registers ∧
    (machine memory).inspect 512 helper.programCounter helper.stackPointer =
      .ok (.saved ⟨0x00100024, 0x00100014⟩ (some 0x001FFFE0)) ∧
    ∃ words : List Word, (slots 0x00100024 0x00100030).map memory = words.map some ∧
      (∀ word ∈ words, WritesStackPointer word none → RestoresStackPointer word) ∧
      ((0x001FFFE0 : Address).toNat : Int) = (0x001FFFD0 : Address).toNat - totalAdded words := by
  intro memory registers helper
  have hposition : helper ∈ (machine memory).positions .default registers := by decide +kernel
  have hinspect : (machine memory).inspect 512 helper.programCounter helper.stackPointer =
      .ok (.saved ⟨0x00100024, 0x00100014⟩ (some 0x001FFFE0)) := by
    decide +kernel
  have hclassify : classify 0x27BDFFF0 = .stackAdjust (some (-16)) := by decide +kernel
  rcases unwind_writesStackPointer memory .default registers with ⟨hiff, -, hacross⟩
  rcases hacross helper hposition _ _ hinspect with ⟨words, hwords, hcaller, -⟩
  exact ⟨⟨((hiff _ _).mp hclassify).1, ((hiff _ _).mp hclassify).2, hclassify⟩, hposition,
    hinspect, words, hwords, (hcaller 0x001FFFE0).mp rfl⟩

/-- A function that opens with `addiu sp, s8, -32` takes its stack pointer from the frame pointer,
so nothing in its code tells the stack pointer of its caller.  The word reads as unknown all the
same, and the walk goes on to the caller with the stack pointer of the function itself. -/
theorem unwind_across_restore :
    let memory := (MappedMemory.empty
      |>.map 0x00100000 [0x03E00008, 0, 0x27DDFFE0, 0xAFBF001C, 0]
      |>.map 0x001FFFE0 [0, 0, 0, 0, 0, 0, 0, 0x00400000]).read
    let registers : Registers := ⟨0x00100010, 0x001FFFE0, 0⟩
    WritesStackPointer 0x27DDFFE0 none ∧ classify 0x27DDFFE0 ≠ .stackAdjust none ∧
    (machine memory).positions .default registers =
      [⟨0x00100010, 0x001FFFE0⟩, ⟨0x00400000, 0x001FFFE0⟩] ∧
    (machine memory).unwind .default registers =
      ⟨[⟨0x00100008, 0x00400000⟩], .unmappedRead 0x00400000⟩ := by
  intro memory registers
  have hrestores : RestoresStackPointer 0x27DDFFE0 := ⟨by decide, by decide, by decide⟩
  have hclassify : classify 0x27DDFFE0 = .unknown := classify_of_restoresStackPointer hrestores
  refine ⟨.restores hrestores, by simp [hclassify], ?_, ?_⟩
  · decide +kernel
  · decide +kernel

end Mips

end Backtrace
