import Mathlib.Data.List.Induction
import Tickscript.Proofs.Machine.Cycle

/-!
# `Tickscript.Proofs.Machine.Conservation`: no printed text is lost

Printing and delivering are separate instructions. Several prints may come before a delivery, a
delivery may find the buffer empty, and a print may be what a tick fails at. So a message says
little about single prints. What can be said is about the whole history: the texts of all
messages, and then the buffer, are the texts of all prints.

The history consists of the actions that ticks complete (`Machine.completed?`). `printedTexts` and
`sentMessages` pick out of it what was printed and what was delivered, without looking at the
outputs. `Outputs.collect` makes outputs of the latter: the devices in the order of their first
messages, each with its own messages.

`Speaks` says what a tick does to the buffer and the outputs, and `Speaks.balances` that the
account stays balanced by it. `accounted_after` is about any program and any schedule, after any
number of ticks, failed ones included.
-/

set_option autoImplicit false

namespace Tickscript

/-! ### Messages by device -/

section FirstOccurrences

variable {α : Type} [DecidableEq α]

/-- One more element is a first occurrence if it is not among those before it. Messages come at
the end, so this is the direction in which the devices are looked at. -/
theorem eraseDups_concat (xs : List α) (x : α) :
    (xs ++ [x]).eraseDups = if x ∈ xs then xs.eraseDups else xs.eraseDups ++ [x] := by
  rw [List.eraseDups_append]
  by_cases h : x ∈ xs
  · simp [List.removeAll, h]
  · simp [List.removeAll, h, List.eraseDups_cons]

/-- First occurrences are all different, so each of them is one key of a table. -/
theorem nodup_eraseDups (xs : List α) : xs.eraseDups.Nodup := by
  induction xs using List.reverseRecOn with
  | nil => exact List.nodup_nil
  | append_singleton xs x ih =>
    rw [eraseDups_concat]
    split
    · exact ih
    · rename_i new
      refine List.nodup_append.mpr ⟨ih, List.pairwise_singleton _ x, ?_⟩
      intro y hy z hz same
      rw [same, List.mem_singleton.mp hz, List.mem_eraseDups] at hy
      exact new hy

end FirstOccurrences

namespace Table

variable {κ α : Type} [DecidableEq κ]

/-- The table with the given keys in their order, and with an entry for each of them. The keys
should be different for this to be a table that setting keys would lead to. -/
def ofKeys (keys : List κ) (entry : κ → α) : Table κ α :=
  ⟨keys.map fun key => (key, entry key)⟩

/-- What such a table has for a key: the entry of the key, if it is one of them. -/
theorem get?_ofKeys (keys : List κ) (entry : κ → α) (key : κ) :
    (ofKeys keys entry).get? key = if key ∈ keys then some (entry key) else none := by
  simp only [ofKeys, get?]
  induction keys with
  | nil => rfl
  | cons k rest ih =>
    rw [List.map_cons, List.lookup_cons]
    by_cases h : key = k
    · simp [h]
    · simp [h, beq_eq_false_iff_ne.mpr h, ih]

/-- Setting a key changes its entry, and a key that is not there comes last. The induction is on
the keys; that they are different is needed so that only one entry changes. -/
theorem set_ofKeys {keys : List κ} (nodup : keys.Nodup) (entry : κ → α) (key : κ) (value : α) :
    (ofKeys keys entry).set key value =
      ofKeys (if key ∈ keys then keys else keys ++ [key]) fun k =>
        if k = key then value else entry k := by
  simp only [ofKeys, set, mk.injEq]
  induction keys with
  | nil => simp [setIn]
  | cons k rest ih =>
    obtain ⟨absent, nodup⟩ := List.nodup_cons.mp nodup
    by_cases h : k = key
    · subst h
      have others : ∀ j ∈ rest, j ≠ k := fun j hj same => absent (same ▸ hj)
      simp only [List.map_cons, setIn, if_true, List.mem_cons, true_or, List.cons.injEq, true_and]
      exact List.map_congr_left fun j hj => by rw [if_neg (others j hj)]
    · simp only [List.map_cons, setIn, h, if_false, ih nodup, List.mem_cons, Ne.symm h, false_or]
      by_cases there : key ∈ rest <;> simp [there, h]

end Table

/-- The messages of a device, in their order. A message comes with its device in front, and the
messages of all devices are in the order in which they were delivered. -/
def messagesTo (sent : List (String × String)) (device : String) : List String :=
  (sent.filter (·.1 = device)).map (·.2)

/-- One more message is the last of its device, and other devices do not notice it. -/
theorem messagesTo_concat (sent : List (String × String)) (device message other : String) :
    messagesTo (sent ++ [(device, message)]) other =
      if other = device then messagesTo sent device ++ [message] else messagesTo sent other := by
  simp only [messagesTo, List.filter_append, List.map_append]
  by_cases h : other = device
  · simp [h]
  · simp [h, Ne.symm h]

/-- A device that has no place among the devices has no messages, so it makes no difference
whether it is looked up in the outputs or in the messages. -/
theorem messagesTo_eq_nil {sent : List (String × String)} {device : String}
    (h : device ∉ sent.map (·.1)) : messagesTo sent device = [] := by
  rw [messagesTo, List.filter_eq_nil_iff.mpr, List.map_nil]
  intro message hmem same
  exact h (List.mem_map.mpr ⟨message, hmem, of_decide_eq_true same⟩)

namespace Outputs

/-- The outputs that a sequence of messages amounts to: the devices in the order of their first
occurrences, each with its own messages. This says what outputs should be, without a table that is
changed message by message. -/
def collect (sent : List (String × String)) : Outputs :=
  .ofKeys (sent.map (·.1)).eraseDups (messagesTo sent)

/-- The messages of a device are found in the outputs, and a device without messages is found
without an entry. -/
theorem get?_collect (sent : List (String × String)) (device : String) :
    ((collect sent).get? device).getD [] = messagesTo sent device := by
  rw [collect, Table.get?_ofKeys]
  split
  · rfl
  · rename_i absent
    rw [List.mem_eraseDups] at absent
    exact (messagesTo_eq_nil absent).symm

/-- One more message comes last at its device. A device that had none comes last among the
devices. So delivering messages one by one amounts to collecting them. -/
theorem deliver_collect (sent : List (String × String)) (device message : String) :
    (collect sent).deliver device message = collect (sent ++ [(device, message)]) := by
  have entries : messagesTo (sent ++ [(device, message)]) =
      fun other =>
        if other = device then messagesTo sent device ++ [message] else messagesTo sent other :=
    funext (messagesTo_concat sent device message)
  rw [deliver, get?_collect, collect, Table.set_ofKeys (nodup_eraseDups _), collect, entries,
    List.map_append, List.map_singleton, eraseDups_concat]
  simp only [List.mem_eraseDups]

end Outputs

/-! ### What an action says -/

namespace Environment

/-- The text that an action prints: that of the value of its operand, if it is a print and the
operand has a value that can be written. -/
def textOf? (e : Environment) : Action → Option String
  | .print source => (e.read source).toOption.bind fun value => value.format.toOption
  | _ => none

/-- The message that an action delivers, with its device in front: the buffer, if it is a
delivery. An empty buffer is a message, too. -/
def messageOf? (e : Environment) : Action → Option (String × String)
  | .flush device => some (device, e.buffer)
  | _ => none

/-- A print that succeeds has a text, which it adds to the buffer. One that fails has none, and
adds nothing. -/
theorem textOf?_of_print {e next : Environment} {source : String} {value : Value}
    (hread : e.read source = .ok value) (h : e.print value = .ok next) :
    ∃ text, value.format = .ok text ∧ e.textOf? (.print source) = some text ∧
      next = { e with buffer := e.buffer ++ text } := by
  unfold print at h
  split at h
  · rename_i text htext
    cases h
    refine ⟨text, htext, ?_, rfl⟩
    rw [textOf?, hread]
    show value.format.toOption = some text
    rw [htext]
    rfl
  · cases h

end Environment

namespace Machine

variable {m next : Machine} {text : Option String} {message : Option (String × String)}

/-- From `m` to `next` at most one thing is said. The buffer and the outputs stay as they are, or
a text is added to the buffer, or the buffer becomes a message and is empty then. -/
inductive Speaks (m next : Machine) : Option String → Option (String × String) → Prop where
  | nothing (buffer : next.environment.buffer = m.environment.buffer)
      (outputs : next.environment.outputs = m.environment.outputs) : Speaks m next none none
  | text (text : String) (buffer : next.environment.buffer = m.environment.buffer ++ text)
      (outputs : next.environment.outputs = m.environment.outputs) :
      Speaks m next (some text) none
  | message (device : String) (buffer : next.environment.buffer = "")
      (outputs : next.environment.outputs =
        m.environment.outputs.deliver device m.environment.buffer) :
      Speaks m next none (some (device, m.environment.buffer))

/-- An action says what `textOf?` and `messageOf?` take from it. There is one case for each
action, and five of the seven say nothing. -/
theorem speaks_of_perform {action : Action} (h : m.perform action = .ok next) :
    Speaks m next (m.environment.textOf? action) (m.environment.messageOf? action) := by
  cases action with
  | set dest source =>
    obtain ⟨value, -, h⟩ := bind_eq_ok h
    cases h
    exact .nothing rfl rfl
  | compute operation dest left right =>
    obtain ⟨a, -, h⟩ := bind_eq_ok h
    obtain ⟨b, -, h⟩ := bind_eq_ok h
    obtain ⟨value, -, h⟩ := bind_eq_ok h
    cases h
    exact .nothing rfl rfl
  | sense dest object property =>
    cases h
    exact .nothing rfl rfl
  | jump condition left right target =>
    obtain ⟨a, -, h⟩ := bind_eq_ok h
    obtain ⟨b, -, h⟩ := bind_eq_ok h
    obtain ⟨taken, -, h⟩ := bind_eq_ok h
    cases taken <;> cases h <;> exact .nothing rfl rfl
  | print source =>
    obtain ⟨value, hread, h⟩ := bind_eq_ok h
    obtain ⟨e, he, h⟩ := bind_eq_ok h
    cases h
    obtain ⟨text, -, htext, rfl⟩ := Environment.textOf?_of_print hread he
    rw [htext]
    exact .text text rfl rfl
  | flush device =>
    cases h
    exact .message device rfl rfl
  | halt =>
    cases h
    exact .nothing rfl rfl

/-! ### What a tick completes -/

/-- The action that the next tick completes: that of the loaded instruction, if the tick executes
it and does not fail. What a tick has done is seen from the machine before it, without comparing
two machines. -/
def completed? (m : Machine) : Option Action :=
  if m.halted = false ∧ m.phase = .execute ∧ m.tick.2 = none then
    m.loaded.bind fun i => i.action.toOption
  else none

/-- The text that the next tick prints. The operand is read before the sensor events of the tick,
which makes no difference, as sensors are no operands. -/
def printedText? (m : Machine) : Option String :=
  m.completed?.bind m.environment.textOf?

/-- The message that the next tick delivers, with its device in front. There is at most one. -/
def sentMessage? (m : Machine) : Option (String × String) :=
  m.completed?.bind m.environment.messageOf?

/-- A tick completes the action of the loaded instruction, or it completes none and leaves the
buffer, the outputs and the number of executed instructions alone. A tick that fails completes
none. -/
theorem InCycle.tick_completes (cycle : InCycle m) :
    (m.completed? = none ∧ Speaks m m.tick.1 none none ∧ m.tick.1.executed = m.executed) ∨
      ∃ action next, m.completed? = some action ∧ m.sense.perform action = .ok next ∧
        m.tick.1 = next.counted := by
  cases running : m.halted with
  | true =>
    refine Or.inl ⟨if_neg (by simp [running]), ?_⟩
    rw [tick_of_halted running]
    exact ⟨.nothing rfl rfl, rfl⟩
  | false =>
    generalize hticked : m.tick = ticked
    have ways := cycle.ticked running
    rw [hticked] at ways
    cases ways with
    -- A tick that fails executes nothing, and neither does one of the first two phases.
    | refused fault => exact Or.inl ⟨if_neg (by simp [hticked]), .nothing rfl rfl, rfl⟩
    | left hphase => exact Or.inl ⟨if_neg (by simp [hphase]), .nothing rfl rfl, rfl⟩
    | fetched a i hphase hcounter hi =>
      exact Or.inl ⟨if_neg (by simp [hphase]), .nothing rfl rfl, rfl⟩
    | latched hphase => exact Or.inl ⟨if_neg (by simp [hphase]), .nothing rfl rfl, rfl⟩
    | executed i next hphase hi hexecute =>
      obtain ⟨loaded, hloaded, hsame⟩ := cycle.loaded (by simp [hphase])
      rw [hi] at hloaded
      cases hloaded
      obtain ⟨action, haction, hperform⟩ := bind_eq_ok hexecute
      refine Or.inr ⟨action, next, ?_, hperform, rfl⟩
      rw [completed?, if_pos ⟨running, hphase, by rw [hticked]⟩, hsame]
      show i.action.toOption = some action
      rw [haction]
      rfl

/-- What a tick does to the buffer and the outputs is what it prints or delivers. This is the step
of the account below. -/
theorem InCycle.speaks (cycle : InCycle m) : Speaks m m.tick.1 m.printedText? m.sentMessage? := by
  rw [printedText?, sentMessage?]
  rcases cycle.tick_completes with ⟨hnone, silent, -⟩ | ⟨action, next, hsome, hperform, htick⟩
  · rw [hnone]
    exact silent
  · rw [hsome, htick]
    -- The sensors have changed before, but neither a text nor a message depends on them.
    have spoken : Speaks m.sense next (m.environment.textOf? action)
        (m.environment.messageOf? action) :=
      speaks_of_perform hperform
    show Speaks m next.counted (m.environment.textOf? action) (m.environment.messageOf? action)
    generalize m.environment.textOf? action = text at spoken ⊢
    generalize m.environment.messageOf? action = message at spoken ⊢
    cases spoken with
    | nothing buffer outputs => exact .nothing buffer outputs
    | text text buffer outputs => exact .text text buffer outputs
    | message device buffer outputs => exact .message device buffer outputs

/-- Every action that a tick completes is counted, and nothing else is. -/
theorem InCycle.executed_tick (cycle : InCycle m) :
    m.tick.1.executed = m.executed + m.completed?.toList.length := by
  rcases cycle.tick_completes with ⟨hnone, -, same⟩ | ⟨action, next, hsome, hperform, htick⟩
  · rw [hnone, same]
    rfl
  · rw [hsome, htick]
    show next.executed + 1 = m.executed + 1
    rcases perform_cases hperform with ⟨e, rfl⟩ | ⟨condition, left, right, target, -, rfl⟩ |
      ⟨-, rfl⟩ <;> rfl

/-- Every print that a tick completes has a text: that of the value which its operand has then. A
print without a text would have failed. -/
theorem InCycle.printedText?_of_completed (cycle : InCycle m) {source : String}
    (h : m.completed? = some (.print source)) :
    ∃ value text, m.environment.read source = .ok value ∧ value.format = .ok text ∧
      m.printedText? = some text := by
  rcases cycle.tick_completes with ⟨hnone, -, -⟩ | ⟨action, next, hsome, hperform, -⟩
  · rw [hnone] at h
    cases h
  · rw [hsome] at h
    cases h
    obtain ⟨value, hread, hperform⟩ := bind_eq_ok hperform
    obtain ⟨e, hprint, -⟩ := bind_eq_ok hperform
    obtain ⟨text, hformat, htext, -⟩ := Environment.textOf?_of_print hread hprint
    refine ⟨value, text, hread, hformat, ?_⟩
    rw [printedText?, hsome]
    exact htext

/-! ### Along a run -/

/-- The texts that the first `n` ticks of a run print, in their order. Ticks that fail print
nothing. -/
def printedTexts (run : Nat → Machine) (n : Nat) : List String :=
  (List.range n).filterMap fun k => (run k).printedText?

/-- The messages that the first `n` ticks of a run deliver, in their order and with their
devices. -/
def sentMessages (run : Nat → Machine) (n : Nat) : List (String × String) :=
  (List.range n).filterMap fun k => (run k).sentMessage?

/-- The buffer and the outputs of a machine are what is due after these texts and these messages.
The texts of all messages, and then the buffer, are the texts that were printed. -/
structure Balances (m : Machine) (printed : List String) (sent : List (String × String)) :
    Prop where
  texts : String.join (sent.map (·.2)) ++ m.environment.buffer = String.join printed
  outputs : m.environment.outputs = .collect sent

/-- Whatever is said, the account stays balanced. A text that is printed goes to the end of the
buffer, and a delivery moves the buffer to the end of the messages. -/
theorem Speaks.balances {printed : List String} {sent : List (String × String)}
    (speaks : Speaks m next text message) (h : Balances m printed sent) :
    Balances next (printed ++ text.toList) (sent ++ message.toList) := by
  obtain ⟨texts, outputs⟩ := h
  cases speaks with
  | nothing hbuffer houtputs =>
    refine ⟨?_, ?_⟩
    · rw [hbuffer, Option.toList_none, Option.toList_none, List.append_nil,
        List.append_nil, texts]
    · rw [houtputs, outputs, Option.toList_none, List.append_nil]
  -- Both sides of the account grow by the text, at the end.
  | text text hbuffer houtputs =>
    refine ⟨?_, ?_⟩
    · rw [hbuffer, Option.toList_none, List.append_nil, ← String.append_assoc, texts,
        Option.toList_some, String.join_append, String.join_cons, String.join_nil,
        String.append_empty]
    · rw [houtputs, outputs, Option.toList_none, List.append_nil]
  -- The buffer moves from the second part of the left side to the first.
  | message device hbuffer houtputs =>
    refine ⟨?_, ?_⟩
    · rw [hbuffer, String.append_empty, Option.toList_none, List.append_nil, Option.toList_some,
        List.map_append, String.join_append, ← texts]
      show _ ++ String.join [m.environment.buffer] = _
      rw [String.join_cons, String.join_nil, String.append_empty]
    · rw [houtputs, outputs, Outputs.deliver_collect, Option.toList_some]

/-- What one more index contributes to a list that is filtered from a range. -/
theorem filterMap_range_succ {α : Type} (f : Nat → Option α) (n : Nat) :
    (List.range (n + 1)).filterMap f = (List.range n).filterMap f ++ (f n).toList := by
  rw [List.range_succ, List.filterMap_append]
  cases h : f n <;> simp [h]

/-- As many actions are completed as instructions are executed. So the history has all that the
machine has counted. -/
theorem executed_after (program : List Instr) (schedule : List SensorEvent) (n : Nat) :
    ((start program schedule).after n).executed =
      ((List.range n).filterMap
        fun k => ((start program schedule).after k).completed?).length := by
  induction n with
  | zero => rfl
  | succ n ih =>
    rw [filterMap_range_succ, List.length_append, ← ih]
    exact (inCycle_after program schedule n).executed_tick

/-- The account is balanced from the start, where nothing is printed and nothing is delivered, and
each tick keeps it so. -/
theorem balances_after (program : List Instr) (schedule : List SensorEvent) (n : Nat) :
    Balances ((start program schedule).after n)
      (printedTexts (fun k => (start program schedule).after k) n)
      (sentMessages (fun k => (start program schedule).after k) n) := by
  induction n with
  | zero => exact ⟨rfl, rfl⟩
  | succ n ih =>
    rw [printedTexts, sentMessages, filterMap_range_succ, filterMap_range_succ]
    exact (inCycle_after program schedule n).speaks.balances ih

/-- How the texts that the first `n` ticks of a run print are accounted for:

- `executed`: as many actions are completed as instructions are executed;
- `prints`: every print that is completed has a text, that of the value of its operand;
- `texts`: the texts of all messages and then the buffer are the texts of all prints;
- `outputs`: the outputs list the devices in the order of their first messages, and each device
  has exactly the messages that were delivered to it, in their order. -/
structure Accounted (run : Nat → Machine) (n : Nat) : Prop where
  executed : (run n).executed = ((List.range n).filterMap fun k => (run k).completed?).length
  prints : ∀ k source, (run k).completed? = some (.print source) →
    ∃ value text, (run k).environment.read source = .ok value ∧ value.format = .ok text ∧
      (run k).printedText? = some text
  texts : String.join ((sentMessages run n).map (·.2)) ++ (run n).environment.buffer =
    String.join (printedTexts run n)
  outputs : (run n).environment.outputs = .collect (sentMessages run n)

/-- **No printed text is lost or duplicated**, over any program and any schedule, after any number
of ticks, those that fail included. The program need not come from a source: prints and deliveries
may stand in any order. -/
theorem accounted_after (program : List Instr) (schedule : List SensorEvent) (n : Nat) :
    Accounted (fun k => (start program schedule).after k) n := by
  obtain ⟨texts, outputs⟩ := balances_after program schedule n
  refine ⟨executed_after program schedule n, ?_, texts, outputs⟩
  intro k source completed
  exact (inCycle_after program schedule k).printedText?_of_completed completed

/-- Two prints before a delivery, a delivery of nothing, a print that is never delivered, and one
that fails for ever: the text of a power of ten with more digits than a text may have. -/
example :
    let program : List Instr :=
      [.plain .op ["pow", "x", "10", "5000"], .plain .print ["\"a\""], .plain .print ["2"],
        .plain .printflush ["left"], .plain .printflush ["right"], .plain .print ["\"b\""],
        .plain .printflush ["left"], .plain .print ["null"], .plain .print ["x"]]
    let run := fun k => (start program []).after k
    (run 30).tick.2.isSome = true ∧ printedTexts run 30 = ["a", "2", "b", "null"] ∧
      sentMessages run 30 = [("left", "a2"), ("right", ""), ("left", "b")] ∧
      (run 30).environment.buffer = "null" ∧
      (run 30).environment.outputs.entries = [("left", ["a2", "b"]), ("right", [""])] := by
  decide +kernel

end Machine

end Tickscript
