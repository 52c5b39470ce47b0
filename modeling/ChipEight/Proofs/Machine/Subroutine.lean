import ChipEight.Proofs.Machine.Decoding
import ChipEight.Proofs.Machine.History

/-!
# The discipline of subroutines

A call puts its return address on the call stack and a return takes the newest one off; nothing else
that a program does touches the stack. So what lies on the stack below a certain depth stays there
as long as the stack is at least that deep (`suffix_course`), and the step that brings the stack
back to its depth before a call is the return from that call (`returns_of_course`): it goes on after
the call, with the stack that the call found. `subroutines_return` is both for a reachable machine.

A `course` is a number of steps with other operations after each of them. These may be any but steps
and resets, a program that is loaded over the running one included. Nothing is asked of the words
that the steps read, which the program may have written itself.
-/

namespace ChipEight

namespace Machine

variable {m : Machine}

/-- The machine after a number of steps, the `k`-th of them followed by the operations `asides k`. -/
def course (m : Machine) (asides : Nat → List Operation) : Nat → Machine
  | 0 => m
  | n + 1 => (m.course asides n).after (.step :: asides n)

/-! ## One step -/

/-- **The stack after a step** that meets no fault: a call put the address of the next word on it,
a return went on at the newest entry and took it off, or the stack is as it was. -/
theorem frames_next (size : m.memory.size = memorySize) (clear : m.fault? = none) :
    (∃ target address, m.instruction? = some (.call target) ∧
      m.next.stack.frames = address :: m.stack.frames ∧
      (address.toNat : Int) = m.registers.pc + 2) ∨
    (∃ address, m.instruction? = some .returnFromCall ∧
      m.stack.frames = address :: m.next.stack.frames ∧
      m.next.registers.pc = address.toNat) ∨
    ((∀ target, m.instruction? ≠ some (.call target)) ∧
      m.next.stack.frames = m.stack.frames) := by
  obtain ⟨low, high⟩ := pc_of_fault? size clear
  obtain ⟨i, read, met, changed⟩ := instruction_of_fault? clear
  cases i with
  | call target =>
    have pushed := frames_pushed low high
    refine .inl ⟨target, UInt16.ofNat ((m.registers.pc + 2) % 65536).toNat, read, ?_, ?_⟩
    · rw [changed]
      rfl
    · exact (List.cons.inj pushed).1
  | returnFromCall =>
    have held : m.stack.frames ≠ [] := by
      simpa only [objection, CallStack.popFault?, ite_eq_right_iff, reduceCtorEq, imp_false]
        using met
    obtain ⟨address, older, frames⟩ := List.exists_cons_of_ne_nil held
    refine .inr (.inl ⟨address, read, ?_, ?_⟩)
    · rw [changed]
      simp only [change, withPc, CallStack.popped, frames, List.tail_cons]
    · rw [changed]
      simp only [change, withPc, CallStack.top, frames, List.headD_cons]
  | _ =>
    refine .inr (.inr ⟨fun target same => ?_, ?_⟩)
    · rw [read] at same
      cases same
    · rw [changed, change_eq]
      rfl

/-- A step on a call puts the address of the next word on the stack. -/
theorem frames_next_of_call (size : m.memory.size = memorySize) (clear : m.fault? = none)
    (call : m.word.family = 0x2) :
    ∃ address : UInt16, m.next.stack.frames = address :: m.stack.frames ∧
      (address.toNat : Int) = m.registers.pc + 2 := by
  have called : m.instruction? = some (.call m.word.nnn) :=
    Instruction.decode_of_spells ⟨call, rfl⟩
  rcases frames_next size clear with ⟨-, address, -, pushed, next⟩ | ⟨-, read, -⟩ | ⟨other, -⟩
  · exact ⟨address, pushed, next⟩
  · rw [called] at read
    cases read
  · exact absurd called (other _)

/-- A step that leaves the stack less deep is a return to its newest entry. -/
theorem returns_of_depth_lt (size : m.memory.size = memorySize) (clear : m.fault? = none)
    (fewer : m.next.stack.depth < m.stack.depth) :
    ∃ address : UInt16, m.instruction? = some .returnFromCall ∧
      m.stack.frames = address :: m.next.stack.frames ∧
      m.next.registers.pc = address.toNat := by
  rw [CallStack.depth, CallStack.depth] at fewer
  rcases frames_next size clear with ⟨-, _, -, pushed, -⟩ | returned | ⟨-, kept⟩
  · rw [pushed, List.length_cons] at fewer
    omega
  · exact returned
  · rw [kept] at fewer
    omega

/-- What lies at the bottom of the stack stays there in a step that leaves the stack at least as
deep. -/
theorem suffix_next (size : m.memory.size = memorySize) (clear : m.fault? = none)
    {base : List UInt16} (held : base <:+ m.stack.frames)
    (deep : base.length ≤ m.next.stack.depth) : base <:+ m.next.stack.frames := by
  rcases frames_next size clear with
    ⟨target, address, -, pushed, -⟩ | ⟨address, -, popped, -⟩ | ⟨-, kept⟩
  · rw [pushed]
    exact held.trans (List.suffix_cons address _)
  · rw [popped, List.suffix_cons_iff] at held
    rcases held with whole | below
    · rw [whole, List.length_cons, CallStack.depth] at deep
      omega
    · exact below
  · rw [kept]
    exact held

/-! ## Many steps -/

variable {asides : Nat → List Operation}

theorem Reachable.course (reached : m.Reachable) (n : Nat) : (m.course asides n).Reachable := by
  induction n with
  | zero => exact reached
  | succ n ih => exact ih.after _

/-- One step more changes the registers and the stack by that step alone. -/
theorem processor_course_succ
    (quiet : ∀ k, ∀ operation ∈ asides k, operation ≠ .step ∧ operation ≠ .reset) {n : Nat}
    (clear : (m.course asides n).fault? = none) :
    (m.course asides (n + 1)).registers = (m.course asides n).next.registers ∧
      (m.course asides (n + 1)).stack = (m.course asides n).next.stack := by
  have stepped : m.course asides (n + 1) = (m.course asides n).next.after (asides n) := by
    rw [course, after_cons, Operation.apply_step, clear]
  rw [stepped]
  exact processor_after _ (quiet n)

/-- **What lies at the bottom of the stack stays there** for as long as the stack is at least as
deep, from any step of a course on. -/
theorem suffix_course (reached : m.Reachable)
    (quiet : ∀ k, ∀ operation ∈ asides k, operation ≠ .step ∧ operation ≠ .reset)
    {base : List UInt16} {first last : Nat} (order : first ≤ last)
    (clear : ∀ k < last, (m.course asides k).fault? = none)
    (deep : ∀ k, first ≤ k → k ≤ last → base.length ≤ (m.course asides k).stack.depth)
    (held : base <:+ (m.course asides first).stack.frames) :
    base <:+ (m.course asides last).stack.frames := by
  induction order with
  | refl => exact held
  | @step n order ih =>
    have below : base <:+ (m.course asides n).stack.frames :=
      ih (fun k early => clear k (Nat.lt_succ_of_lt early)) fun k late early =>
        deep k late (Nat.le_succ_of_le early)
    have met := clear n (Nat.lt_succ_self n)
    have enough := deep (n + 1) (Nat.le_succ_of_le order) (Nat.le_refl _)
    obtain ⟨-, stack⟩ := processor_course_succ quiet met
    rw [stack] at enough ⊢
    exact suffix_next (reached.course n).wellFormed.size met below enough

/-- The oldest entries of a stack of which they are the bottom. -/
theorem take_entries_of_suffix {s : CallStack} {base : List UInt16} (held : base <:+ s.frames) :
    s.entries.take base.length = base.reverse := by
  have first : base.reverse <+: s.entries := List.reverse_prefix.mpr held
  rw [List.prefix_iff_eq_take, List.length_reverse] at first
  exact first.symm

/-- The step that brings the stack back to its depth before a call takes the entry of that call off:
until then the entry and those below it lie at the bottom of the stack. -/
theorem returns_of_course (reached : m.Reachable)
    (quiet : ∀ k, ∀ operation ∈ asides k, operation ≠ .step ∧ operation ≠ .reset) {n : Nat}
    (clear : ∀ k < n + 1, (m.course asides k).fault? = none) (call : m.word.family = 0x2)
    (within : ∀ k, 1 ≤ k → k ≤ n → m.stack.depth < (m.course asides k).stack.depth)
    (back : (m.course asides (n + 1)).stack.depth = m.stack.depth) :
    (m.course asides n).instruction? = some .returnFromCall ∧
      (m.course asides (n + 1)).registers.pc = m.registers.pc + 2 ∧
      (m.course asides (n + 1)).stack.frames = m.stack.frames := by
  obtain ⟨address, pushed, next⟩ :=
    frames_next_of_call reached.wellFormed.size (clear 0 (Nat.succ_pos n)) call
  obtain ⟨-, begun⟩ := processor_course_succ quiet (clear 0 (Nat.succ_pos n))
  have entered : (m.course asides 1).stack.frames = address :: m.stack.frames := by
    rw [begun]
    exact pushed
  -- One step alone is the call, which leaves the stack deeper than it was.
  have more : 1 ≤ n := by
    rcases Nat.eq_zero_or_pos n with rfl | positive
    · rw [CallStack.depth, Nat.zero_add, entered, List.length_cons, CallStack.depth] at back
      omega
    · exact positive
  have held : address :: m.stack.frames <:+ (m.course asides n).stack.frames :=
    suffix_course reached quiet more (fun k early => clear k (Nat.lt_succ_of_lt early)) within
      (entered ▸ List.suffix_refl _)
  have last := clear n (Nat.lt_succ_self n)
  obtain ⟨registers, stack⟩ := processor_course_succ quiet last
  rw [stack] at back ⊢
  rw [registers]
  have fewer : (m.course asides n).next.stack.depth < (m.course asides n).stack.depth :=
    back ▸ within n more (Nat.le_refl n)
  obtain ⟨top, read, popped, onward⟩ :=
    returns_of_depth_lt (reached.course n).wellFormed.size last fewer
  rw [popped] at held
  have whole : address :: m.stack.frames = top :: (m.course asides n).next.stack.frames :=
    held.eq_of_length (congrArg (· + 1) back.symm)
  obtain ⟨rfl, below⟩ := List.cons.inj whole
  exact ⟨read, onward.trans next, below.symm⟩

/-- **The discipline of subroutines.** On a reachable machine, a number of steps succeed, with any
operations but steps and resets after each of them. While the stack is at least `d` deep, its `d`
oldest entries stay as they are. If the first step is a call and the last step is the first to bring
the stack back to its depth before the call, the last step is a return, and it goes on with the word
after the call and the stack as it was before the call. -/
theorem subroutines_return (reached : m.Reachable)
    (quiet : ∀ k, ∀ operation ∈ asides k, operation ≠ .step ∧ operation ≠ .reset) {n : Nat}
    (succeeds : ∀ k < n + 1, ∃ m', step.run (m.course asides k) = .ok () m') :
    (∀ d, (∀ k ≤ n + 1, d ≤ (m.course asides k).stack.depth) →
      (m.course asides (n + 1)).stack.entries.take d = m.stack.entries.take d) ∧
    (m.word.family = 0x2 →
      (∀ k, 1 ≤ k → k ≤ n → m.stack.depth + 1 ≤ (m.course asides k).stack.depth) →
      (m.course asides (n + 1)).stack.depth = m.stack.depth →
      (m.course asides n).word = 0x00EE ∧
        (m.course asides (n + 1)).registers.pc = m.registers.pc + 2 ∧
        (m.course asides (n + 1)).stack.entries = m.stack.entries) := by
  have clear (k : Nat) (early : k < n + 1) : (m.course asides k).fault? = none := by
    obtain ⟨m', succeeded⟩ := succeeds k early
    exact (step_eq_ok_iff.mp succeeded).1
  constructor
  · intro d deep
    -- The bottom of the stack is what is left of it below the newest entries.
    obtain ⟨base, length, held⟩ : ∃ base : List UInt16,
        base.length = d ∧ base <:+ m.stack.frames := by
      have depth : d ≤ m.stack.frames.length := deep 0 (Nat.zero_le _)
      refine ⟨m.stack.frames.drop (m.stack.frames.length - d), ?_, List.drop_suffix _ _⟩
      rw [List.length_drop]
      omega
    subst length
    have kept := suffix_course reached quiet (Nat.zero_le (n + 1)) clear
      (fun k _ early => deep k early) held
    rw [take_entries_of_suffix kept, take_entries_of_suffix held]
  · intro call within back
    obtain ⟨read, onward, frames⟩ := returns_of_course reached quiet clear call within back
    exact ⟨Instruction.spells_of_decode read, onward, congrArg List.reverse frames⟩

/-- A call of a subroutine that makes its last word a return: V0 is zero and goes over the first byte
of the jump there. -/
def selfWriting : List UInt8 := [0x22, 0x02, 0xA2, 0x06, 0xF0, 0x55, 0x12, 0xEE]

/-- The fourth step is the return from that call, with a tick and a key after every step. -/
theorem subroutines_return_selfWriting :
    let m := (powerOn (some 16) (.cycling #[])).after [.load selfWriting]
    let asides := fun _ : Nat => [Operation.tick, .press 3]
    m.Reachable ∧ m.word = 0x2202 ∧
      (∀ k < 4, ∃ m', step.run (m.course asides k) = .ok () m') ∧
      (∀ k, 1 ≤ k → k ≤ 3 → m.stack.depth + 1 ≤ (m.course asides k).stack.depth) ∧
      (m.course asides 4).stack.depth = m.stack.depth ∧
      (m.course asides 3).word = 0x00EE ∧
      (m.course asides 4).registers.pc = m.registers.pc + 2 ∧
      (m.course asides 4).stack.entries = m.stack.entries := by
  intro m asides
  have reached : m.Reachable := ⟨some 16, .cycling #[], _, _, rfl, rfl⟩
  have quiet : ∀ k, ∀ operation ∈ asides k, operation ≠ .step ∧ operation ≠ .reset :=
    fun _ => by decide
  obtain ⟨word, back, course⟩ : m.word = 0x2202 ∧
      (m.course asides 4).stack.depth = m.stack.depth ∧
      ∀ k < 4, (m.course asides k).fault? = none ∧
        (1 ≤ k → m.stack.depth + 1 ≤ (m.course asides k).stack.depth) := by
    decide +kernel
  have succeeds (k : Nat) (early : k < 4) : ∃ m', step.run (m.course asides k) = .ok () m' :=
    ⟨_, step_eq_ok_iff.mpr ⟨(course k early).1, rfl⟩⟩
  have within (k : Nat) (late : 1 ≤ k) (early : k ≤ 3) :=
    (course k (Nat.lt_succ_of_le early)).2 late
  have call : m.word.family = 0x2 := by
    rw [word]
    decide
  have returned := (subroutines_return (n := 3) reached quiet succeeds).2 call within back
  exact ⟨reached, word, succeeds, within, back, returned⟩

end Machine

end ChipEight
