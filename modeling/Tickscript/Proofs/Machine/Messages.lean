import Mathlib
import Tickscript.Proofs.Generator.Landings
import Tickscript.Proofs.Machine.Conservation
import Tickscript.Proofs.Machine.Safety

/-!
# `Tickscript.Proofs.Machine.Messages`: one message for each print

The machine collects text in a buffer and delivers the buffer as one message. Nothing in the
machine itself ties a message to a single print; the code of a compiled program does, because it
is `Interlocked`.

A machine is `Quiet` if its buffer is empty and the instruction in progress, or the next one,
delivers nothing. A tick keeps it quiet unless it executes a print (`Quiet.tick`). A print is
followed by three ticks that can neither fail nor go anywhere else, the last of them delivers what
was printed, and the machine is quiet again (`Prints.delivery`). So at every tick of a run the
machine is quiet, or a quiet machine has printed at most three ticks before (`quiet_or_printed`).
Ticks that fail are covered: they find the machine quiet and leave it quiet.
-/

set_option autoImplicit false

namespace Tickscript

namespace Machine

variable {m next : Machine} {i : Instr} {code : List Instr}

/-! ### The buffer and the outputs -/

/-- An instruction that neither prints nor delivers leaves the buffer and the outputs alone. What
it does is read off the action that it asks for. -/
theorem messages_of_execute (h : m.execute i = .ok next) (hprint : i.opcode ≠ .print)
    (hflush : i.opcode ≠ .printflush) :
    next.environment.buffer = m.environment.buffer ∧
      next.environment.outputs = m.environment.outputs := by
  obtain ⟨action, haction, h⟩ := bind_eq_ok h
  have opcodes : (∀ source, action = .print source → i.opcode = .print) ∧
      (∀ device, action = .flush device → i.opcode = .printflush) := by
    constructor <;> rintro text rfl <;> unfold Instr.action at haction <;> split at haction <;>
      cases haction <;> assumption
  have spoken := speaks_of_perform h
  cases action with
  | print source => exact absurd (opcodes.1 source rfl) hprint
  | flush device => exact absurd (opcodes.2 device rfl) hflush
  | _ =>
    cases spoken with
    | nothing buffer outputs => exact ⟨buffer, outputs⟩

/-- A print that succeeds adds the text of the value of its operand to the buffer, and nothing
else changes. In particular the counter has moved on, to what stands behind the print. -/
theorem execute_print {source : String} (h : m.execute (.plain .print [source]) = .ok next) :
    ∃ value text, m.environment.read source = .ok value ∧ value.format = .ok text ∧
      next = { m with
        environment := { m.environment with buffer := m.environment.buffer ++ text } } := by
  change m.perform (.print source) = _ at h
  obtain ⟨value, hvalue, h⟩ := bind_eq_ok h
  obtain ⟨e, he, h⟩ := bind_eq_ok h
  cases h
  obtain ⟨text, htext, -, rfl⟩ := Environment.textOf?_of_print hvalue he
  exact ⟨value, text, hvalue, htext, rfl⟩

/-! ### A quiet machine -/

/-- The instruction in progress, or the one that is fetched next if none is. A machine that has
left its program has none. -/
def upcoming (m : Machine) : Option Instr :=
  if m.phase = .fetch then m.counter.bind fun a => if a < 0 then none else m.program[a.toNat]?
  else m.loaded

/-- The instruction at the counter is fetched next, if there is one. -/
theorem upcoming_of_fetch {a : Nat} (hphase : m.phase = .fetch)
    (hcounter : m.counter = some (a : Int)) :
    m.upcoming = m.program[a]? := by
  have hnat : ¬(a : Int) < 0 := by omega
  simp [upcoming, hphase, hcounter, hnat]

/-- An instruction in progress is the one that is loaded, wherever the counter is. -/
theorem upcoming_of_ne_fetch (hphase : m.phase ≠ .fetch) : m.upcoming = m.loaded := by
  rw [upcoming, if_neg hphase]

/-- The buffer is empty, and the upcoming instruction does not deliver it. The second part is what
excludes empty messages. -/
structure Quiet (m : Machine) : Prop where
  buffer : m.environment.buffer = ""
  upcoming : ∀ i, m.upcoming = some i → i.opcode ≠ .printflush

/-- The next tick of `m` executes a print of `source`, whose value has the given text. The value
is the one that the operand has in that tick. -/
structure Prints (m : Machine) (source : String) (value : Value) (text : String) : Prop where
  running : m.halted = false
  phase : m.phase = .execute
  loaded : m.loaded = some (.plain .print [source])
  reads : m.sense.environment.read source = .ok value
  shows : value.format = .ok text

/-- After an instruction that does not print, the counter is not at one that delivers: behind it
stands none, and no jump goes to one. -/
theorem not_flush_of_execute (interlocked : Interlocked code)
    (hi : code[m.lastAddress]? = some i) (hcounter : m.counter = some (m.lastAddress + 1 : Int))
    (hprint : i.opcode ≠ .print) (h : m.execute i = .ok next) {a : Nat}
    (ha : next.counter = some (a : Int)) : ∀ j, code[a]? = some j → j.opcode ≠ .printflush := by
  -- What delivers stands behind a print.
  have behind : ∀ j, code[m.lastAddress + 1]? = some j → j.opcode ≠ .printflush := by
    intro j hj hflush
    obtain ⟨b, source, device, hb, hprinted, -⟩ := interlocked.flush _ j hj hflush
    rw [← Nat.succ.inj hb, hi] at hprinted
    cases hprinted
    exact hprint rfl
  have moved : m.counter = some (a : Int) → a = m.lastAddress + 1 := by
    intro same
    rw [hcounter] at same
    have := Option.some.inj same
    omega
  rcases execute_cases h with ⟨e, rfl⟩ | ⟨hjump, rfl⟩ | ⟨-, rfl⟩
  · rw [moved ha]
    exact behind
  · obtain ⟨target, htarget, free⟩ := interlocked.target i (List.mem_of_getElem? hi) hjump
    have same : some (a : Int) = some (target : Int) := ha.symm.trans htarget
    rw [show a = target by have := Option.some.inj same; omega]
    exact free
  · rw [moved ha]
    exact behind

/-- **A quiet machine stays quiet** unless it executes a print, and it delivers nothing. -/
theorem Quiet.tick (interlocked : Interlocked code) (program : m.program = code.toArray)
    (cycle : InCycle m) (quiet : Quiet m)
    (silent : ∀ source value text, ¬Prints m source value text) :
    Quiet m.tick.1 ∧ m.tick.1.environment.outputs = m.environment.outputs := by
  cases running : m.halted with
  | true =>
    rw [tick_of_halted running]
    exact ⟨quiet, rfl⟩
  | false =>
    generalize hticked : m.tick = ticked
    have ways := cycle.ticked running
    rw [hticked] at ways
    cases ways with
    | refused fault => exact ⟨⟨quiet.buffer, quiet.upcoming⟩, rfl⟩
    | left hphase => exact ⟨⟨quiet.buffer, quiet.upcoming⟩, rfl⟩
    -- What is loaded now was upcoming before, and so it does not deliver.
    | fetched a i hphase hcounter hi =>
      refine ⟨⟨quiet.buffer, fun j hj => ?_⟩, rfl⟩
      cases hj
      exact quiet.upcoming i (by rw [upcoming_of_fetch hphase hcounter, hi])
    | latched hphase =>
      refine ⟨⟨quiet.buffer, fun j hj => ?_⟩, rfl⟩
      exact quiet.upcoming j (by rw [upcoming_of_ne_fetch (by simp [hphase])]; exact hj)
    | executed i next hphase hi hexecute =>
      obtain ⟨loaded, hloaded, hsame⟩ := cycle.loaded (by simp [hphase])
      rw [hi] at hloaded
      cases hloaded
      have hcode : code[m.lastAddress]? = some i := by
        rwa [program, List.getElem?_toArray] at hi
      have hflush : i.opcode ≠ .printflush :=
        quiet.upcoming i (by rw [upcoming_of_ne_fetch (by simp [hphase]), hsame])
      by_cases hprint : i.opcode = .print
      · obtain ⟨source, device, rfl, -⟩ := interlocked.print _ i hcode hprint
        obtain ⟨value, text, hvalue, htext, -⟩ := execute_print hexecute
        exact absurd ⟨running, hphase, hsame, hvalue, htext⟩ (silent source value text)
      · obtain ⟨hbuffer, houtputs⟩ := messages_of_execute hexecute hprint hflush
        have same : next.program = code.toArray := by
          rcases execute_cases hexecute with ⟨e, rfl⟩ | ⟨-, rfl⟩ | ⟨-, rfl⟩ <;> exact program
        refine ⟨⟨hbuffer.trans quiet.buffer, fun j hj => ?_⟩, houtputs⟩
        -- The counter is where the instruction left it.
        obtain ⟨address, haddress, hj⟩ := Option.bind_eq_some_iff.mp hj
        have inside : ¬address < 0 := by
          intro negative
          simp [negative] at hj
        simp only [inside, if_false] at hj
        have hat : next.counter = some (address.toNat : Int) := by
          rw [Int.toNat_of_nonneg (by omega)]
          exact haddress
        refine not_flush_of_execute (m := m.sense) interlocked hcode (cycle.execute hphase)
          hprint hexecute hat j ?_
        rw [← List.getElem?_toArray, ← same]
        exact hj

/-! ### From a print to its message -/

/-- Ticks can be counted in two parts, so a run can be looked at from the middle. -/
theorem after_add (n k : Nat) (m : Machine) : m.after (n + k) = (m.after n).after k := by
  induction k with
  | zero => rfl
  | succ k ih => rw [← Nat.add_assoc, after, ih, after]

/-- The machine that has executed a print of `text`. The instruction and the tick are counted. -/
def printed (m : Machine) (text : String) : Machine :=
  counted { m.sense with
    environment := { m.sense.environment with buffer := m.environment.buffer ++ text } }

/-- The machine that has delivered its buffer to a device. The buffer is empty then. -/
def flushed (m : Machine) (device : String) : Machine :=
  counted { m.sense with environment := m.sense.environment.flush device }

/-- A print that the machine is about to execute succeeds, because its operand has a value and the
value has a text. -/
theorem Prints.tick {source text : String} {value : Value} (h : Prints m source value text) :
    m.tick = (m.printed text, none) := by
  refine tick_execute h.running h.phase h.loaded ?_
  show m.sense.perform (.print source) = _
  simp only [perform, h.reads, Environment.print, h.shows, bind, Except.bind, pure, Except.pure]
  rfl

/-- Delivering never fails, whatever the device is called and whatever the buffer holds. -/
theorem tick_flush {device : String} (running : m.halted = false) (hphase : m.phase = .execute)
    (hloaded : m.loaded = some (.plain .printflush [device])) :
    m.tick = (m.flushed device, none) :=
  tick_execute running hphase hloaded rfl

/-- The four ticks from the one in which `m` prints a text to the one in which it is delivered:

- `printed`: after the first one the text is alone in the buffer, and the counter is at what
  delivers it, right behind the print;
- `busy`: after the second one an instruction is in progress;
- `delivers`: after the third one it is about to be executed;
- `kept`, `delivered`: the text is the message of the fourth one, and the only message;
- `quiet`: then the machine is quiet. -/
structure Delivery (code : List Instr) (m : Machine) (source device text : String) : Prop where
  printed : (m.after 1).environment.buffer = text ∧
    (m.after 1).counter = some (m.lastAddress + 1 : Int) ∧
    code[m.lastAddress]? = some (.plain .print [source]) ∧
    code[m.lastAddress + 1]? = some (.plain .printflush [device])
  busy : (m.after 2).phase = .latch
  delivers : (m.after 3).phase = .execute ∧
    (m.after 3).loaded = some (.plain .printflush [device]) ∧
    (m.after 3).lastAddress = m.lastAddress + 1
  kept : ∀ n ≤ 3, (m.after n).environment.outputs = m.environment.outputs
  delivered : (m.after 4).environment.outputs = m.environment.outputs.deliver device text
  quiet : Quiet (m.after 4)

/-- **From a print to its message.** What a quiet machine prints is delivered three ticks later,
by itself. The instruction behind the print is the one that delivers, and the three ticks are
those of that instruction. -/
theorem Prints.delivery (interlocked : Interlocked code) (program : m.program = code.toArray)
    (cycle : InCycle m) (quiet : Quiet m) {source text : String} {value : Value}
    (prints : Prints m source value text) : ∃ device, Delivery code m source device text := by
  obtain ⟨i, hi, hloaded⟩ := cycle.loaded (by simp [prints.phase])
  rw [prints.loaded] at hloaded
  cases hloaded
  rw [program, List.getElem?_toArray] at hi
  obtain ⟨source', device, hsource, hflush⟩ := interlocked.print _ _ hi rfl
  cases hsource
  have hcounter : m.counter = some ((m.lastAddress + 1 : Nat) : Int) := cycle.execute prints.phase
  have hnext : m.program[m.lastAddress + 1]? = some (.plain .printflush [device]) := by
    rw [program, List.getElem?_toArray, hflush]
  -- The print, two ticks that fetch what delivers, and the delivery.
  have one : m.after 1 = m.printed text := congrArg Prod.fst prints.tick
  let fetching := (m.printed text).fetched (m.lastAddress + 1) (.plain .printflush [device])
  have two : m.after 2 = fetching := by
    rw [after, one]
    exact congrArg Prod.fst (tick_fetch (m := m.printed text) prints.running rfl hcounter hnext)
  have three : m.after 3 = fetching.latched := by
    rw [after, two]
    exact congrArg Prod.fst (tick_latch (m := fetching) prints.running rfl)
  have four : m.after 4 = fetching.latched.flushed device := by
    rw [after, three]
    exact congrArg Prod.fst (tick_flush (m := fetching.latched) prints.running rfl rfl)
  have hbuffer : m.environment.buffer ++ text = text := by
    rw [quiet.buffer, String.empty_append]
  refine ⟨device, ⟨?_, ?_, ?_, ?_, ?_, ?_⟩⟩
  · rw [one]
    exact ⟨hbuffer, hcounter, hi, hflush⟩
  · rw [two]
    rfl
  · rw [three]
    exact ⟨rfl, rfl, rfl⟩
  · intro n hn
    rcases n with _ | _ | _ | _ | n
    · rfl
    · rw [one]
      rfl
    · rw [two]
      rfl
    · rw [three]
      rfl
    · omega
  · rw [four]
    show m.environment.outputs.deliver device (m.environment.buffer ++ text) = _
    rw [hbuffer]
  · rw [four]
    refine ⟨rfl, fun j hj => ?_⟩
    have hat : (fetching.latched.flushed device).counter =
        some ((m.lastAddress + 2 : Nat) : Int) := by
      show m.counter.map (· + 1) = _
      rw [hcounter]
      rfl
    rw [upcoming_of_fetch rfl hat] at hj
    have hcode : code[m.lastAddress + 2]? = some j := by
      rw [← List.getElem?_toArray, ← program]
      exact hj
    intro again
    obtain ⟨b, other, device', hb, hprinted, -⟩ := interlocked.flush _ j hcode again
    rw [← Nat.succ.inj hb, hflush] at hprinted
    cases hprinted

/-! ### Along a run -/

/-- No tick changes the program, so the code stays interlocked along a run. -/
theorem program_tick (cycle : InCycle m) : m.tick.1.program = m.program := by
  cases running : m.halted with
  | true => rw [tick_of_halted running]
  | false =>
    generalize hticked : m.tick = ticked
    have ways := cycle.ticked running
    rw [hticked] at ways
    cases ways with
    | executed i next hphase hi hexecute =>
      rcases execute_cases hexecute with ⟨e, rfl⟩ | ⟨-, rfl⟩ | ⟨-, rfl⟩ <;> rfl
    | _ => rfl

/-- The program of a machine is the code that it was started with. -/
theorem program_after (code : List Instr) (schedule : List SensorEvent) (n : Nat) :
    ((start code schedule).after n).program = code.toArray := by
  induction n with
  | zero => rfl
  | succ n ih => rw [after, program_tick (inCycle_after code schedule n), ih]

/-- A machine that starts is quiet: its buffer is empty, and the first instruction of interlocked
code has no print before it and so does not deliver. -/
theorem quiet_start (interlocked : Interlocked code) (schedule : List SensorEvent) :
    Quiet (start code schedule) := by
  refine ⟨rfl, fun i hi hflush => ?_⟩
  rw [upcoming_of_fetch (a := 0) rfl rfl] at hi
  have first : code[0]? = some i := by
    rw [← List.getElem?_toArray]
    exact hi
  obtain ⟨b, source, device, hb, -⟩ := interlocked.flush 0 i first hflush
  cases hb

/-- At every tick of a run the machine is quiet, or a quiet machine has printed at most three
ticks before. The induction is on the ticks. -/
theorem quiet_or_printed (interlocked : Interlocked code)
    (schedule : List SensorEvent) (n : Nat) :
    Quiet ((start code schedule).after n) ∨
      ∃ k source value text, k < n ∧ n ≤ k + 3 ∧ Quiet ((start code schedule).after k) ∧
        Prints ((start code schedule).after k) source value text := by
  induction n with
  | zero => exact Or.inl (quiet_start interlocked schedule)
  | succ n ih =>
    rcases ih with quiet | ⟨k, source, value, text, hlt, hle, quiet, prints⟩
    · by_cases printing :
        ∃ source value text, Prints ((start code schedule).after n) source value text
      · obtain ⟨source, value, text, prints⟩ := printing
        exact Or.inr ⟨n, source, value, text, by omega, by omega, quiet, prints⟩
      · refine Or.inl (quiet.tick interlocked (program_after code schedule n)
          (inCycle_after code schedule n) fun source value text prints => ?_).1
        exact printing ⟨source, value, text, prints⟩
    · by_cases last : n = k + 3
      · -- The fourth tick delivers.
        obtain ⟨device, delivery⟩ := prints.delivery interlocked (program_after code schedule k)
          (inCycle_after code schedule k) quiet
        subst last
        rw [show k + 3 + 1 = k + 4 from rfl, after_add]
        exact Or.inl delivery.quiet
      · exact Or.inr ⟨k, source, value, text, by omega, by omega, quiet, prints⟩

/-- The tick `k` of a run executes a print, and the third tick after it executes what stands
behind the print in the program, which delivers the text of the printed value to a device. -/
structure Delivers (run : Nat → Machine) (k : Nat) (device text : String) : Prop where
  prints : ∃ source value, Prints (run k) source value text
  phase : (run (k + 3)).phase = .execute
  loaded : (run (k + 3)).loaded = some (.plain .printflush [device])
  address : (run (k + 3)).lastAddress = (run k).lastAddress + 1
  outputs : (run (k + 4)).environment.outputs =
    (run (k + 3)).environment.outputs.deliver device text

/-- What a quiet machine prints in a run is delivered in the run. This takes `Prints.delivery`,
which counts from the print, to a run that counts from its start. -/
theorem exists_delivers (interlocked : Interlocked code) (schedule : List SensorEvent) {k : Nat}
    (quiet : Quiet ((start code schedule).after k)) {source text : String} {value : Value}
    (prints : Prints ((start code schedule).after k) source value text) :
    ∃ device, Delivery code ((start code schedule).after k) source device text ∧
      Delivers (fun n => (start code schedule).after n) k device text := by
  obtain ⟨device, delivery⟩ := prints.delivery interlocked (program_after code schedule k)
    (inCycle_after code schedule k) quiet
  refine ⟨device, delivery, ⟨source, value, prints⟩, ?_, ?_, ?_, ?_⟩
  · rw [after_add]
    exact delivery.delivers.1
  · rw [after_add]
    exact delivery.delivers.2.1
  · rw [after_add]
    exact delivery.delivers.2.2
  · rw [after_add, after_add, delivery.delivered, delivery.kept 3 (Nat.le_refl 3)]

/-- A tick delivers nothing, or it is the last of those that follow a print. So each message can
be traced back to its print. -/
theorem outputs_after_succ (interlocked : Interlocked code)
    (schedule : List SensorEvent) (n : Nat) :
    ((start code schedule).after (n + 1)).environment.outputs =
        ((start code schedule).after n).environment.outputs ∨
      ∃ k device text, n = k + 3 ∧
        Delivers (fun n => (start code schedule).after n) k device text := by
  -- Between a print and its delivery the outputs are those before the print.
  have between : ∀ k source value text,
      k ≤ n → n ≤ k + 3 → Quiet ((start code schedule).after k) →
      Prints ((start code schedule).after k) source value text →
      ((start code schedule).after (n + 1)).environment.outputs =
          ((start code schedule).after n).environment.outputs ∨
        ∃ k device text, n = k + 3 ∧
          Delivers (fun n => (start code schedule).after n) k device text := by
    intro k source value text hle hle3 quiet prints
    obtain ⟨device, delivery, delivers⟩ := exists_delivers interlocked schedule quiet prints
    by_cases last : n = k + 3
    · exact Or.inr ⟨k, device, text, last, delivers⟩
    · obtain ⟨d, rfl⟩ := Nat.exists_eq_add_of_le hle
      rw [Nat.add_assoc, after_add k (d + 1), after_add k d, delivery.kept d (by omega),
        delivery.kept (d + 1) (by omega)]
      exact Or.inl rfl
  rcases quiet_or_printed interlocked schedule n with
    quiet | ⟨k, source, value, text, hlt, hle, quiet, prints⟩
  · by_cases printing :
      ∃ source value text, Prints ((start code schedule).after n) source value text
    · obtain ⟨source, value, text, prints⟩ := printing
      exact between n source value text (Nat.le_refl n) (by omega) quiet prints
    · refine Or.inl (quiet.tick interlocked (program_after code schedule n)
        (inCycle_after code schedule n) fun source value text prints => ?_).2
      exact printing ⟨source, value, text, prints⟩
  · exact between k source value text (Nat.le_of_lt hlt) hle quiet prints

/-- A message that is there after a delivery was there before, or it is the one delivered. -/
theorem mem_deliver {o : Outputs} {device text other message : String}
    (h : message ∈ ((o.deliver device text).get? other).getD []) :
    message ∈ (o.get? other).getD [] ∨ (other = device ∧ message = text) := by
  rw [Outputs.deliver, Table.get?_set] at h
  split at h
  · rename_i same
    subst same
    simpa using h
  · exact Or.inl h

/-- How messages come about in a run over `code`:

- `target`: every jump has a target, and none goes to an instruction that delivers;
- `buffer`: before an instruction is fetched the buffer is empty, unless the tick before executed
  a print. Then the buffer holds the text of the printed value and nothing else, and the counter
  is at the instruction behind the print, which delivers it;
- `delivery`: a tick delivers nothing, or the third tick before it has printed what it delivers;
- `message`: every message of a device was delivered to it in this way. -/
structure MessagePerPrint (code : List Instr) (run : Nat → Machine) : Prop where
  target : ∀ i ∈ code, i.opcode = .jump →
    ∃ target : Nat, i.target = some (target : Int) ∧
      ∀ j, code[target]? = some j → j.opcode ≠ .printflush
  buffer : ∀ n, (run n).phase = .fetch → (run n).environment.buffer = "" ∨
    ∃ k source device value, n = k + 1 ∧ Prints (run k) source value (run n).environment.buffer ∧
      (run n).counter = some ((run k).lastAddress + 1 : Int) ∧
      code[(run k).lastAddress]? = some (.plain .print [source]) ∧
      code[(run k).lastAddress + 1]? = some (.plain .printflush [device])
  delivery : ∀ n, (run (n + 1)).environment.outputs = (run n).environment.outputs ∨
    ∃ k device text, n = k + 3 ∧ Delivers run k device text
  message : ∀ n device message, message ∈ ((run n).environment.outputs.get? device).getD [] →
    ∃ k, k + 3 < n ∧ Delivers run k device message

/-- **One message for each print.** Take the code of any source text that compiles, crossing
blocks included, and any schedule of the sensors. However many ticks have passed, failed ones
included, every message that a device has got is the text of one value: that of the operand of the
print that was executed immediately before the delivery. -/
theorem messagePerPrint_of_compileCode {v : Vocabulary} {mnemonics : Mnemonics} {source : String}
    {code : List Instr} (h : (compileCode v mnemonics source).result = .ok code)
    (schedule : List SensorEvent) :
    MessagePerPrint code fun n => (start code schedule).after n := by
  obtain ⟨statements, -, hnone, rfl⟩ := generate_of_compileCode h
  have interlocked := interlocked_of_generate hnone
  have delivery := outputs_after_succ interlocked schedule
  refine ⟨interlocked.target, fun n hphase => ?_, delivery, fun n device message => ?_⟩
  · rcases quiet_or_printed interlocked schedule n with
      quiet | ⟨k, source, value, text, hlt, hle, quiet, prints⟩
    · exact Or.inl quiet.buffer
    · obtain ⟨device, delivery, delivers⟩ := exists_delivers interlocked schedule quiet prints
      -- Of the three ticks behind the print only the first leaves the machine about to fetch.
      obtain rfl | rfl | rfl : n = k + 1 ∨ n = k + 2 ∨ n = k + 3 := by omega
      · obtain ⟨hbuffer, hcounter, hprint, hflush⟩ := delivery.printed
        refine Or.inr ⟨k, source, device, value, rfl, ?_, ?_, hprint, hflush⟩
        · rw [after_add, hbuffer]
          exact prints
        · rw [after_add]
          exact hcounter
      · rw [after_add, delivery.busy] at hphase
        cases hphase
      · rw [delivers.phase] at hphase
        cases hphase
  · induction n with
    | zero => intro hmem; cases hmem
    | succ n ih =>
      intro hmem
      rcases delivery n with same | ⟨k, other, text, rfl, delivers⟩
      · rw [same] at hmem
        obtain ⟨k, hlt, delivers⟩ := ih hmem
        exact ⟨k, by omega, delivers⟩
      · rw [delivers.outputs] at hmem
        rcases mem_deliver hmem with hmem | ⟨rfl, rfl⟩
        · obtain ⟨k', hlt, delivers⟩ := ih hmem
          exact ⟨k', by omega, delivers⟩
        · exact ⟨k, by omega, delivers⟩

/-- A conditional and a loop that cross, with a print in both of them. The device gets the two
values of the counter, each by itself. -/
theorem messagePerPrint_of_crossing_source :
    let source := "if a<1;for i=0 i<2;print(i,d);endif endfor"
    let code : List Instr :=
      [.jumpTo 2 ["lessThan", "a", "1"], .jumpTo 9 ["always"], .plain .set ["i", "0"],
        .jumpTo 5 ["always"], .plain .op ["add", "i", "i", "1"],
        .plain .op ["lessThan", "__loop_cond", "i", "2"],
        .jumpTo 10 ["equal", "__loop_cond", "false"], .plain .print ["i"],
        .plain .printflush ["d"], .jumpTo 4 ["always"], .plain .halt []]
    let schedule : List SensorEvent := [⟨3, "d", "i", .text "x"⟩]
    (compileCode .standard .standard source).result = .ok code ∧
      ((start code schedule).after 70).environment.outputs.get? "d" = some ["0", "1"] ∧
      MessagePerPrint code fun n => (start code schedule).after n := by
  have read : Token.parse .standard "if a<1;for i=0 i<2;print(i,d);endif endfor" = .ok
      [[⟨.keyword, "if", 1⟩, ⟨.name, "a", 1⟩, ⟨.operator, "<", 1⟩, ⟨.value, "1", 1⟩],
        [⟨.keyword, "for", 1⟩, ⟨.name, "i", 1⟩, ⟨.operator, "=", 1⟩, ⟨.value, "0", 1⟩,
          ⟨.name, "i", 1⟩, ⟨.operator, "<", 1⟩, ⟨.value, "2", 1⟩],
        [⟨.keyword, "print(", 1⟩, ⟨.name, "i", 1⟩, ⟨.name, "d", 1⟩],
        [⟨.keyword, "endif", 1⟩], [⟨.keyword, "endfor", 1⟩]] := by
    set_option maxRecDepth 2000 in cbv
  intro source code schedule
  have compiled : (compileCode .standard .standard source).result = .ok code := by
    rw [compileCode, show Token.parse .standard source = _ from read]
    rfl
  exact ⟨compiled, by decide +kernel, messagePerPrint_of_compileCode compiled schedule⟩

end Machine

end Tickscript
