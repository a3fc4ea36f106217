import Tickscript.Proofs.Except
import Tickscript.Proofs.ProgramText.Stored
import Tickscript.Session

/-!
# `Tickscript.Proofs.Session.Files`: what a session finds in its files

Whether a path can be written to does not depend on the bytes: writing finds a place, and then a
file is put there (`write_eq`). A file that is put at such a place turns no folder into a file, so
the path leads to the same place afterwards (`placeFor_withFile`). Hence the bytes that were
written are read (`read_of_write`), and of two texts that are written only the last counts
(`write_of_write`).

The second half is the same for sessions, as run equations: what `readText` and `writeText`
answer, and in which workspace.
-/

set_option autoImplicit false

namespace Tickscript

open Tickscript.Text

/-- What a guarded action gives is what the action gives, if the path is one. Reading, writing and
making folders are all guarded in this way. -/
theorem PathName.guarded_eq_ok_iff {α : Type} {p : PathName}
    {action : Except FileFault.Cause α} {a : α} :
    p.guarded action = .ok a ↔ p.check = .ok () ∧ action = .ok a := by
  unfold PathName.guarded
  cases p.check with
  | error cause => simp
  | ok checked => exact mapError_eq_ok.trans (and_iff_right rfl).symm

namespace FileTree

variable {t grown : FileTree} {p : PathName} {location : Location}

/-- The tree with a file at a location. A file that was there is replaced. -/
def withFile (t : FileTree) (location : Location) (bytes : ByteArray) : FileTree :=
  { t with files := t.files.set location bytes }

/-- A file that is put at a location makes folders of what is around the location, and of nothing
else. Folders are kept apart from files only where they are empty. -/
theorem isFolder_withFile (t : FileTree) (location other : Location) (bytes : ByteArray) :
    (t.withFile location bytes).isFolder other = true ↔
      t.isFolder other = true ∨ (other.isPrefixOf location && other != location) = true := by
  simp only [isFolder, withFile, Bool.or_eq_true, List.any_eq_true]
  constructor
  · rintro (h | ⟨file, hfile, h⟩)
    · exact Or.inl (Or.inl h)
    · rcases Table.mem_keys_of_mem_set hfile with rfl | hfile
      · exact Or.inr h
      · exact Or.inl (Or.inr ⟨file, hfile, h⟩)
  · rintro ((h | ⟨file, hfile, h⟩) | h)
    · exact Or.inl h
    · exact Or.inr ⟨file, Table.mem_keys_set bytes (Or.inr hfile), h⟩
    · exact Or.inr ⟨location, Table.mem_keys_set bytes (Or.inl rfl), h⟩

/-! ### Paths in a tree that has grown -/

/-- A step leads into a folder if it leads to one. All other answers of `enter` are refusals. -/
theorem enter_eq_ok_iff {here next : Location} {step : PathStep} :
    t.enter here step = .ok next ↔ stepTo here step = .ok next ∧ t.isFolder next = true := by
  unfold enter
  cases stepTo here step with
  | error cause => simp [bind, Except.bind]
  | ok reached =>
    cases hfolder : t.isFolder reached with
    | true =>
      simp only [bind, Except.bind, hfolder, if_true, pure, Except.pure, Except.ok.injEq]
      exact ⟨fun h => ⟨h, h ▸ hfolder⟩, fun h => h.1⟩
    | false =>
      have refused : ¬ (reached = next ∧ t.isFolder next = true) := by
        rintro ⟨rfl, h⟩
        rw [hfolder] at h
        cases h
      cases hfile : t.isFile reached <;>
        simpa [bind, Except.bind, hfolder, hfile, throw, throwThe, MonadExceptOf.throw]
          using refused

/-- A way through folders stays one if no folder goes away. By induction on the steps; the way
leads to the same location, because steps do not depend on the tree. -/
theorem walk_of_grown (h : ∀ other, t.isFolder other = true → grown.isFolder other = true)
    {here : Location} {steps : List PathStep} (hwalk : t.walk here steps = .ok location) :
    grown.walk here steps = .ok location := by
  induction steps generalizing here with
  | nil => exact hwalk
  | cons step steps ih =>
    obtain ⟨next, henter, hrest⟩ := bind_eq_ok hwalk
    obtain ⟨hstep, hfolder⟩ := enter_eq_ok_iff.mp henter
    have again : grown.enter here step = .ok next := enter_eq_ok_iff.mpr ⟨hstep, h next hfolder⟩
    rw [walk, again]
    exact ih hrest

/-- A path has a place if its last step goes down to where no folder is, and the steps before lead
through folders. This is the definition without its refusals. -/
theorem placeFor_eq_ok_iff :
    t.placeFor p = .ok location ↔
      ∃ name folder, p.steps.getLast? = some (.down name) ∧ p.asFolder = false ∧
        t.walk p.start p.steps.dropLast = .ok folder ∧ stepTo folder (.down name) = .ok location ∧
        t.isFolder location = false := by
  unfold placeFor
  constructor
  · intro h
    split at h
    · rename_i name hlast
      obtain ⟨folder, hwalk, h⟩ := bind_eq_ok h
      cases hfolder : p.asFolder with
      | true =>
        simp [hfolder, bind, Except.bind, throw, throwThe, MonadExceptOf.throw] at h
      | false =>
        simp only [hfolder, Bool.false_eq_true, if_false] at h
        obtain ⟨place, hstep, h⟩ := bind_eq_ok h
        cases free : t.isFolder place with
        | true =>
          simp [free, bind, Except.bind, throw, throwThe, MonadExceptOf.throw] at h
        | false =>
          simp only [free, Bool.false_eq_true, if_false] at h
          cases h
          exact ⟨name, folder, hlast, rfl, hwalk, hstep, free⟩
    · -- A path that does not end in a name is walked to its end, and then refused.
      obtain ⟨folder, -, h⟩ := bind_eq_ok h
      cases h
  · rintro ⟨name, folder, hlast, hfolder, hwalk, hstep, free⟩
    simp only [hlast, hwalk, hstep, hfolder, free, bind, Except.bind,
      Bool.false_eq_true, if_false]
    rfl

/-- A path leads to its place, so what is written there is what the path finds. -/
theorem locate_of_placeFor (h : t.placeFor p = .ok location) : t.locate p = .ok location := by
  obtain ⟨name, folder, hlast, hfolder, hwalk, hstep, -⟩ := placeFor_eq_ok_iff.mp h
  rw [locate, hlast]
  simp only [hwalk, bind, Except.bind, hfolder, Bool.false_eq_true, if_false]
  exact hstep

/-- A path keeps its place when a file is put there. No folder on the way goes away, and the place
does not become a folder. -/
theorem placeFor_withFile (h : t.placeFor p = .ok location) (bytes : ByteArray) :
    (t.withFile location bytes).placeFor p = .ok location := by
  obtain ⟨name, folder, hlast, hfolder, hwalk, hstep, free⟩ := placeFor_eq_ok_iff.mp h
  refine placeFor_eq_ok_iff.mpr ⟨name, folder, hlast, hfolder, ?_, hstep, ?_⟩
  · exact walk_of_grown
      (fun other hother => (isFolder_withFile t location other bytes).mpr (Or.inl hother))
      hwalk
  · -- The new file makes folders of the locations above it, not of its own.
    rw [← Bool.not_eq_true, isFolder_withFile, free]
    simp

/-! ### Reading what was written -/

/-- Writing finds a place, whatever the bytes are, and puts a file there. What can go wrong
depends on the path only. -/
theorem write_eq (t : FileTree) (p : PathName) (bytes : ByteArray) :
    t.write p bytes = (p.guarded (t.placeFor p)).map (t.withFile · bytes) := by
  unfold write PathName.guarded
  cases p.check with
  | error cause => rfl
  | ok checked => cases t.placeFor p <;> rfl

/-- The tree after writing. It is the old one with one file more, or with other bytes in it. -/
theorem write_eq_ok_iff {bytes : ByteArray} :
    t.write p bytes = .ok grown ↔
      ∃ location, p.check = .ok () ∧ t.placeFor p = .ok location ∧
        grown = t.withFile location bytes := by
  rw [write_eq]
  constructor
  · intro h
    cases hplace : p.guarded (t.placeFor p) with
    | error fault =>
      rw [hplace] at h
      cases h
    | ok location =>
      rw [hplace] at h
      cases h
      obtain ⟨checked, placed⟩ := PathName.guarded_eq_ok_iff.mp hplace
      exact ⟨location, checked, placed, rfl⟩
  · rintro ⟨location, checked, placed, rfl⟩
    rw [PathName.guarded_eq_ok_iff.mpr ⟨checked, placed⟩]
    rfl

/-- A path refuses all bytes with one fault, or takes all of them at one place. So whether a tool
can write its result does not depend on the result. -/
theorem write_cases (t : FileTree) (p : PathName) :
    (∃ fault, ∀ bytes, t.write p bytes = .error fault) ∨
      ∃ location, ∀ bytes, t.write p bytes = .ok (t.withFile location bytes) := by
  cases hplace : p.guarded (t.placeFor p) with
  | error fault =>
    refine Or.inl ⟨fault, ?_⟩
    intro bytes
    rw [write_eq, hplace]
    rfl
  | ok location =>
    refine Or.inr ⟨location, ?_⟩
    intro bytes
    rw [write_eq, hplace]
    rfl

/-- **Read after write.** A file holds the bytes that were written. The path leads to the same
place after the file was put there. -/
theorem read_of_write {bytes : ByteArray} (h : t.write p bytes = .ok grown) :
    grown.read p = .ok bytes := by
  obtain ⟨location, checked, placed, rfl⟩ := write_eq_ok_iff.mp h
  refine PathName.guarded_eq_ok_iff.mpr ⟨checked, ?_⟩
  rw [locate_of_placeFor (placeFor_withFile placed bytes)]
  have found : (t.withFile location bytes).files.get? location = some bytes := by
    simp [withFile, Table.get?_set]
  simp only [bind, Except.bind, found]
  rfl

/-- **Write after write.** Only the last bytes count. This holds of refusals, too: a path that was
written to once can be written to again. -/
theorem write_of_write {bytes : ByteArray} (h : t.write p bytes = .ok grown) (last : ByteArray) :
    grown.write p last = t.write p last := by
  obtain ⟨location, checked, placed, rfl⟩ := write_eq_ok_iff.mp h
  have again := placeFor_withFile placed bytes
  -- Both writings put a file at the same place, and an entry that is set twice has the last
  -- value.
  rw [write_eq, write_eq, PathName.guarded_eq_ok_iff.mpr ⟨checked, again⟩,
    PathName.guarded_eq_ok_iff.mpr ⟨checked, placed⟩]
  simp [Except.map, withFile, Table.set_set_self]

end FileTree

/-! ### Sessions -/

namespace Session

variable {α β : Type}

/-- The answer of a session in a workspace: a value, or a failure. The workspace stays as it
is. -/
def answered (w : Workspace) : Except Failure α → EStateM.Result Stop Workspace α
  | .ok a => .ok a w
  | .error problem => .error (.failure problem) w

/-- A session goes on where the first part left off. Tools are run step by step with this. -/
theorem run_bind_of_ok {first : Session α} {w mid : Workspace} {a : α}
    (h : first.run w = .ok a mid) (next : α → Session β) :
    (first >>= next).run w = (next a).run mid := by
  show EStateM.bind first next w = _
  rw [EStateM.bind, show first w = _ from h]
  rfl

/-- A session stops where its first part stops, and what would follow is never run. -/
theorem run_bind_of_error {first : Session α} {w mid : Workspace} {stop : Stop}
    (h : first.run w = .error stop mid) (next : α → Session β) :
    (first >>= next).run w = .error stop mid := by
  show EStateM.bind first next w = _
  rw [EStateM.bind, show first w = _ from h]

/-- Reading gives the bytes of a file and leaves the workspace alone. -/
theorem readBytes_run {path : PathName} {bytes : ByteArray} {w : Workspace}
    (h : w.tree.read path = .ok bytes) : (readBytes path).run w = .ok bytes w := by
  show (orFail .file (w.tree.read path)).run w = _
  rw [h]
  rfl

/-- Reading a stored text gives the text with its newlines normalised. The bytes of a text can
always be decoded. -/
theorem readText_run {path : PathName} {text : String} {w : Workspace}
    (h : w.tree.read path = .ok text.toUTF8) : (readText path).run w = .ok (fromFile text) w := by
  rw [readText, run_bind_of_ok (readBytes_run h), textOf, Utf8.decode_toUTF8]
  rfl

/-- Writing a text puts its bytes into the tree. Nothing else in the workspace changes. -/
theorem writeText_run_of_ok {path : PathName} {text : String} {w : Workspace} {tree : FileTree}
    (h : w.tree.write path text.toUTF8 = .ok tree) :
    (writeText path text).run w = .ok () { w with tree } := by
  show (orFail .file (w.tree.write path text.toUTF8) >>= _).run w = _
  rw [h]
  rfl

/-- Writing to a path that cannot be written to fails and changes nothing. The failure names the
fault. -/
theorem writeText_run_of_error {path : PathName} {text : String} {w : Workspace}
    {fault : FileFault} (h : w.tree.write path text.toUTF8 = .error fault) :
    (writeText path text).run w = .error (.failure (.file fault)) w := by
  show (orFail .file (w.tree.write path text.toUTF8) >>= _).run w = _
  rw [h]
  rfl

/-- A command line that is accepted gives its arguments. -/
theorem arguments_run {i : Interface} {words : List String} {args : Arguments}
    (h : i.parse words = .ok args) (w : Workspace) : (arguments i words).run w = .ok args w := by
  rw [arguments, h]
  rfl

/-- An operand that was given is found. A separator in its place would have left nothing. -/
theorem operand_run {args : Arguments} {index : Nat} {path : String}
    (h : args.operands[index]? = some (some path)) (w : Workspace) :
    (operand args index).run w = .ok path w := by
  rw [operand, h]
  rfl

end Session

end Tickscript
