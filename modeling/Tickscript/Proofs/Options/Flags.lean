import Tickscript.Options
import Tickscript.Proofs.Except

/-!
# `Tickscript.Proofs.Options.Flags`: flags behind a command line

A command line of a tool without operands can be continued: flags that are written behind it are
added to its settings, and nothing else changes (`parse_append_flags`). What could spoil this is
the separator, because behind it a flag would be an operand. But a separator without an operand is
surplus, and so is an operand, so the line itself would have been refused
(`surplus_of_separator`).
-/

set_option autoImplicit false

namespace Tickscript

namespace Arguments

/-- The arguments with flags added to the settings. A flag has nothing given for it, which is the
empty text. -/
def withFlags (args : Arguments) (specs : List OptionSpec) : Arguments :=
  { args with settings := args.settings ++ specs.map fun spec => (spec.name, some "") }

/-- Flags change no option of another name. So the tool finds the same files and limits as
before. -/
theorem values_withFlags (args : Arguments) {specs : List OptionSpec} {name : String}
    (h : ∀ spec ∈ specs, spec.name ≠ name) :
    (args.withFlags specs).values name = args.values name := by
  have none : (specs.map fun spec => (spec.name, (some "" : Given))).filter
      (·.1 = name) = [] := by
    refine List.filter_eq_nil_iff.mpr fun setting hsetting same => ?_
    obtain ⟨spec, hspec, rfl⟩ := List.mem_map.mp hsetting
    exact h spec hspec (of_decide_eq_true same)
  rw [values, withFlags, List.filter_append, none, List.append_nil, values]

/-- Each of the flags is set. -/
theorem has_withFlags (args : Arguments) {specs : List OptionSpec} {spec : OptionSpec}
    (h : spec ∈ specs) : (args.withFlags specs).has spec.name = true := by
  refine List.any_eq_true.mpr ⟨(spec.name, some ""), ?_, decide_eq_true rfl⟩
  exact List.mem_append_right _ (List.mem_map.mpr ⟨spec, h, rfl⟩)

end Arguments

namespace Interface

variable {i : Interface} {p q : Progress}

/-! ### Slots -/

/-- The words of a line without the separator are read one by one. Behind a separator every word
would be an operand, so the two parts could not be read apart. -/
theorem slots_append {words more : List String} {xs ys : List Slot} (separator : "--" ∉ words)
    (hwords : i.slots words = .ok xs) (hmore : i.slots more = .ok ys) :
    i.slots (words ++ more) = .ok (xs ++ ys) := by
  induction words generalizing xs with
  | nil =>
    cases hwords
    exact hmore
  | cons text words ih =>
    rw [List.mem_cons, not_or] at separator
    -- rest) = :: What a word is does not depend on the words behind it.
    have unfolded : ∀ rest, i.slots (text :: rest) =
        (i.slotOf text >>= fun slot => i.slots rest >>= fun others => .ok (slot :: others)) := by
      intro rest
      rw [slots.eq_def]
      split
      · rename_i heq
        cases heq
      · rename_i heq
        cases heq
        exact absurd rfl separator.1
      · rename_i heq
        cases heq
        rfl
    rw [unfolded] at hwords
    obtain ⟨slot, hslot, hwords⟩ := bind_eq_ok hwords
    obtain ⟨others, hothers, hwords⟩ := bind_eq_ok hwords
    cases hwords
    rw [List.cons_append, unfolded, hslot, ih separator.2 hothers]
    rfl

/-- The separator is found wherever it stands first, so a line that has the word has the slot. -/
theorem separator_mem_slots {words : List String} {xs : List Slot} (separator : "--" ∈ words)
    (h : i.slots words = .ok xs) : .separator ∈ xs := by
  induction words generalizing xs with
  | nil => cases separator
  | cons text words ih =>
    rw [slots.eq_def] at h
    split at h
    · rename_i heq
      cases heq
    · cases h
      exact List.mem_cons_self
    · rename_i notSeparator heq
      cases heq
      obtain ⟨slot, -, h⟩ := bind_eq_ok h
      obtain ⟨others, hothers, h⟩ := bind_eq_ok h
      cases h
      refine List.mem_cons_of_mem _ (ih ?_ hothers)
      rcases List.mem_cons.mp separator with rfl | separator
      · exact absurd rfl notSeparator
      · exact separator

/-! ### Settings -/

/-- A setting adds to the arguments only. Whether a word is left over, and whether a separator
waits, stays as it was. -/
theorem apply_eq_ok {spec : OptionSpec} {value : String} (h : p.apply spec value = .ok q) :
    q.surplus = p.surplus ∧ q.afterSeparator = p.afterSeparator ∧ q.afterOperand = false := by
  unfold Progress.apply at h
  split at h
  · cases h
  · cases h
    exact ⟨rfl, rfl, rfl⟩
  · cases h
    exact ⟨rfl, rfl, rfl⟩
  · split at h
    · cases h
      exact ⟨rfl, rfl, rfl⟩
    · split at h
      · cases h
        exact ⟨rfl, rfl, rfl⟩
      · cases h

/-- So do several settings, as a cluster of short flags makes them. The step is that of one
setting. -/
theorem applyAll_eq_ok {settings : List (OptionSpec × String)} (h : p.applyAll settings = .ok q)
    (afterOperand : p.afterOperand = false) :
    q.surplus = p.surplus ∧ q.afterSeparator = p.afterSeparator ∧ q.afterOperand = false := by
  induction settings generalizing p with
  | nil =>
    cases h
    exact ⟨rfl, rfl, afterOperand⟩
  | cons setting settings ih =>
    obtain ⟨next, hnext, h⟩ := bind_eq_ok h
    obtain ⟨surplus, separator, operand⟩ := apply_eq_ok hnext
    obtain ⟨surplus', separator', operand'⟩ := ih h operand
    exact ⟨surplus'.trans surplus, separator'.trans separator, operand'⟩

/-! ### Lines -/

/-- An option without a value is carried out before the words that follow it are looked at. The
definition looks at the next word first, because an option with a value may take it. -/
theorem consume_option_none {spec : OptionSpec} (h : ¬spec.kind.takesValue = true)
    (rest : List Slot) :
    i.consume p (.option spec none :: rest) =
      (p.apply spec "" >>= fun next => i.consume next rest) := by
  cases rest with
  | nil => rw [consume, if_neg h]; nofun
  | cons first rest => cases first <;> rw [consume] <;> simp [h]

/-- Words that leave no surplus can be continued. The cases are those of the definition: what is
behind the line matters at its end only, where a separator that waits becomes surplus. -/
theorem consume_append {xs : List Slot} (h : i.consume p xs = .ok q) (clean : q.surplus = false)
    (ys : List Slot) : i.consume p (xs ++ ys) = i.consume q ys := by
  fun_induction consume i p xs with
  | case1 p =>
    -- At the end of the line nothing changes, because no separator was waiting.
    cases h
    have none : p.surplus = false ∧ p.afterSeparator = false := Bool.or_eq_false_iff.mp clean
    obtain ⟨arguments, surplus, afterOperand, afterSeparator⟩ := p
    obtain ⟨rfl, rfl⟩ := none
    rfl
  | case2 p text rest ih => exact ih h
  | case3 p rest ih => exact ih h
  | case4 p rest ih => exact ih h
  | case5 p spec glued rest ih =>
    obtain ⟨settings, hsettings, h⟩ := bind_eq_ok h
    obtain ⟨next, hnext, h⟩ := bind_eq_ok h
    rw [List.cons_append, consume, hsettings]
    show (p.applyAll settings >>= fun next => i.consume next (rest ++ ys)) = _
    rw [hnext]
    exact ih next h
  | case6 p spec value rest takes ih =>
    obtain ⟨next, hnext, h⟩ := bind_eq_ok h
    rw [List.cons_append, consume, if_pos takes, hnext]
    exact ih next h
  | case7 => cases h
  | case8 p spec takes value rest ih =>
    obtain ⟨next, hnext, h⟩ := bind_eq_ok h
    rw [List.cons_append, List.cons_append, consume, if_pos takes]
    show (p.apply spec value >>= fun next => i.consume next (rest ++ ys)) = _
    rw [hnext]
    exact ih next h
  | case9 => cases h
  | case10 p spec rest takes ih =>
    obtain ⟨next, hnext, h⟩ := bind_eq_ok h
    rw [List.cons_append, consume_option_none takes, hnext]
    exact ih next h

/-- What will be refused at the end of the line: a word without use, or a separator that waits for
an operand. -/
def Progress.Spoiled (p : Progress) : Prop :=
  p.surplus = true ∨ p.afterSeparator = true

/-- Where no operand is wanted, nothing that follows mends a line. A separator spoils it, because
it comes right after an operand only if that was surplus itself. So a line that was accepted has
no separator. -/
theorem surplus_of_consume (hoperands : i.operands = 0) {xs : List Slot}
    (h : i.consume p xs = .ok q) (afterOperand : p.afterOperand = false)
    (spoiled : p.Spoiled ∨ .separator ∈ xs) :
    q.surplus = true := by
  -- What the settings leave is spoiled if it was before.
  have kept : ∀ {p next : Progress} {xs : List Slot} {slot : Slot},
      next.surplus = p.surplus ∧ next.afterSeparator = p.afterSeparator ∧
        next.afterOperand = false →
      p.Spoiled ∨ .separator ∈ slot :: xs → slot ≠ .separator →
        next.Spoiled ∨ .separator ∈ xs := by
    intro p next xs slot same spoiled hslot
    rcases spoiled with spoiled | spoiled
    · left
      rw [Progress.Spoiled, same.1, same.2.1]
      exact spoiled
    · exact .inr (List.mem_of_ne_of_mem (Ne.symm hslot) spoiled)
  fun_induction consume i p xs with
  | case1 p =>
    cases h
    rcases spoiled with spoiled | spoiled
    · exact Bool.or_eq_true_iff.mpr spoiled
    · cases spoiled
  | case2 p text rest ih =>
    -- The operand takes a waiting separator with it, but it is surplus itself.
    have refused : p.take i text =
        { p with surplus := true, afterOperand := false, afterSeparator := false } := by
      rw [Progress.take, hoperands, if_neg (Nat.not_lt_zero _)]
    exact ih h (by rw [refused]) (.inl (.inl (by rw [refused])))
  | case3 p rest ih => exact ih h rfl (.inl (.inl rfl))
  | case4 p rest ih =>
    refine ih h afterOperand (.inl (.inr ?_))
    show (!p.afterOperand) = true
    rw [afterOperand]
    rfl
  | case5 p spec glued rest ih =>
    obtain ⟨settings, -, h⟩ := bind_eq_ok h
    obtain ⟨next, hnext, h⟩ := bind_eq_ok h
    have same := applyAll_eq_ok hnext afterOperand
    exact ih next h same.2.2 (kept same spoiled nofun)
  | case6 p spec value rest takes ih =>
    obtain ⟨next, hnext, h⟩ := bind_eq_ok h
    have same := apply_eq_ok hnext
    exact ih next h same.2.2 (kept same spoiled nofun)
  | case7 => cases h
  | case8 p spec takes value rest ih =>
    -- Here a word is the value of an option, so it is not looked at as an operand.
    obtain ⟨next, hnext, h⟩ := bind_eq_ok h
    have same := apply_eq_ok hnext
    have later : p.Spoiled ∨ .separator ∈ .operand value :: rest := by
      rcases spoiled with spoiled | spoiled
      · exact .inl spoiled
      · exact .inr (List.mem_of_ne_of_mem (y := .option spec none) nofun spoiled)
    exact ih next h same.2.2 (kept same later nofun)
  | case9 => cases h
  | case10 p spec rest takes ih =>
    obtain ⟨next, hnext, h⟩ := bind_eq_ok h
    have same := apply_eq_ok hnext
    exact ih next h same.2.2 (kept same spoiled nofun)

/-- A word that is a flag, spelled in full or by its start.

- `notSeparator`: it is not the word behind which all words are operands;
- `slot`: it is read as the option, with nothing attached;
- `kind`: the option takes no value and is not the one that asks for help. -/
structure IsFlag (i : Interface) (text : String) (spec : OptionSpec) : Prop where
  notSeparator : text ≠ "--"
  slot : i.slotOf text = .ok (.option spec none)
  kind : spec.kind = .flag

/-- A flag that is spelled in full. Its spelling is found as it stands, before starts of spellings
and clusters are tried. -/
theorem isFlag_of_find? {text : String} {spec : OptionSpec} (h : i.find? text.toList = some spec)
    (dash : text.toList.head? = some '-') (long : 2 < text.toList.length)
    (kind : spec.kind = .flag) :
    i.IsFlag text spec := by
  refine ⟨?_, ?_, kind⟩
  · rintro rfl
    exact absurd long (by decide)
  · have notOperand : ¬(text.toList.head? ≠ some '-' || text.toList.length = 1) = true := by
      rw [dash]
      simp only [ne_eq, not_true, decide_false, Bool.false_or, decide_eq_true_eq]
      omega
    rw [slotOf, if_neg notOperand, h]

/-- Flags are read one by one, since none of them is the separator. -/
theorem slots_flags {flags : List String} {spec : String → OptionSpec}
    (h : ∀ flag ∈ flags, i.IsFlag flag (spec flag)) :
    i.slots flags = .ok (flags.map fun flag => .option (spec flag) none) := by
  induction flags with
  | nil => rfl
  | cons flag flags ih =>
    have first := h flag List.mem_cons_self
    have single : i.slots [flag] = .ok [.option (spec flag) none] := by
      rw [slots.eq_def]
      split
      · rename_i heq
        cases heq
      · rename_i heq
        exact absurd (List.cons.inj heq).1 first.notSeparator
      · rename_i heq
        cases heq
        rw [first.slot]
        rfl
    refine slots_append ?_ single (ih fun other hother => h other (List.mem_cons_of_mem _ hother))
    exact fun separator => first.notSeparator (List.mem_singleton.mp separator).symm

/-- A line of flags adds them to the settings, in their order, and leaves nothing over. -/
theorem consume_flags {flags : List String} {spec : String → OptionSpec}
    (h : ∀ flag ∈ flags, i.IsFlag flag (spec flag))
    (clean : p.surplus = false) (separator : p.afterSeparator = false) :
    ∃ q, i.consume p (flags.map fun flag => .option (spec flag) none) = .ok q ∧
      q.surplus = false ∧ q.arguments = p.arguments.withFlags (flags.map spec) := by
  induction flags generalizing p with
  | nil =>
    refine ⟨_, rfl, ?_, ?_⟩
    · show (p.surplus || p.afterSeparator) = false
      rw [clean, separator]
      rfl
    · rw [List.map_nil, Arguments.withFlags, List.map_nil, List.append_nil]
  | cons flag flags ih =>
    have kind := (h flag List.mem_cons_self).kind
    have noValue : ¬(spec flag).kind.takesValue = true := by
      rw [kind]
      exact Bool.false_ne_true
    have applied : p.apply (spec flag) "" = .ok (p.record (spec flag) (some "")) := by
      rw [Progress.apply, kind]
    obtain ⟨q, hq, surplus, arguments⟩ :=
      ih (p := p.record (spec flag) (some ""))
        (fun other hother => h other (List.mem_cons_of_mem _ hother)) clean separator
    refine ⟨q, ?_, surplus, ?_⟩
    · rw [List.map_cons, consume_option_none noValue, applied]
      exact hq
    · rw [arguments, Progress.record, Arguments.withFlags, List.append_assoc]
      rfl

/-- **Flags behind a line.** A tool that wants no operands reads a line with flags behind it as
the line with these flags added to its settings. -/
theorem parse_append_flags (hoperands : i.operands = 0) {words : List String} {args : Arguments}
    (h : i.parse words = .ok args) {flags : List String}
    {spec : String → OptionSpec} (hflags : ∀ flag ∈ flags, i.IsFlag flag (spec flag)) :
    i.parse (words ++ flags) = .ok (args.withFlags (flags.map spec)) := by
  obtain ⟨xs, hxs, h⟩ := bind_eq_ok h
  obtain ⟨p, hp, h⟩ := bind_eq_ok h
  have clean : p.surplus = false := by
    cases hsurplus : p.surplus with
    | false => rfl
    | true =>
      rw [hsurplus] at h
      cases h
  have noSeparator : "--" ∉ words := by
    intro separator
    rw [surplus_of_consume hoperands hp rfl (.inr (separator_mem_slots separator hxs))] at clean
    cases clean
  have waiting : p.afterSeparator = false := by
    -- The line can be continued by nothing, and that would bring out a separator that waits.
    have again := consume_append hp clean []
    rw [List.append_nil, hp] at again
    have same : p.surplus = (p.surplus || p.afterSeparator) :=
      congrArg Progress.surplus (Except.ok.inj again)
    rw [clean] at same
    exact same.symm
  obtain ⟨q, hq, surplus, arguments⟩ := consume_flags hflags clean waiting
  have found : args = p.arguments := by
    rw [clean, hoperands] at h
    exact (Except.ok.inj h).symm
  have read : i.parse (words ++ flags) = .ok q.arguments := by
    rw [parse, slots_append noSeparator hxs (slots_flags hflags)]
    show (i.consume {} (xs ++ _) >>= _) = _
    rw [consume_append hp clean, hq]
    show (if q.surplus || _ then _ else _) = _
    rw [surplus, hoperands]
    rfl
  rw [read, arguments, found]

end Interface

end Tickscript
