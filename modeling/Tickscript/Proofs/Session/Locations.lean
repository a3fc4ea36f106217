import Tickscript.Proofs.Session.Files
import Tickscript.Proofs.Value.Operations

/-!
# `Tickscript.Proofs.Session.Locations`: files by their location

A tool that puts its files into folders of its own names them by location, and a location is
written as a full path and walked again. This goes back to the same location if the location is
proper: it goes up first, or starts at the root, and then only goes down (`target_named`). Every
location that a path leads to is proper (`proper_target`).

For proper locations a tree is a table. A file is read exactly if the table has it and its path
can be used at all (`read_named_iff`): the folders on the way need no mention, because a file
makes folders of everything around it. Writing sets one entry (`write_named`), and making folders
sets none.

`FileTree.Grows` says what a tool may have done below a folder. It is all that is needed to carry
files from one point of a session to a later one.
-/

set_option autoImplicit false

namespace Tickscript

/-! ### Proper locations -/

/-- A name that leads down when it is walked. The other names stay in the folder or go up, and the
root is written as a name of its own. -/
def IsName (name : String) : Prop :=
  PathStep.ofName name = .down name ∧ name ≠ "/"

/-- Both parts can be decided. -/
instance (name : String) : Decidable (IsName name) :=
  inferInstanceAs (Decidable (_ ∧ _))

/-- Goes up any number of times, or starts at the root, and then goes down. This is what is left
of a path when its steps are taken one by one. -/
inductive Location.Proper : Location → Prop where
  | ups (count : Nat) : Proper (List.replicate count "..")
  | root : Proper ["/"]
  | down {l : Location} {name : String} (proper : Proper l) (isName : IsName name) :
      Proper (l ++ [name])

namespace Location

/-- A name is neither of the two that have a meaning of their own in a location. -/
theorem ne_of_isName {name : String} (h : IsName name) : name ≠ ".." ∧ name ≠ "/" := by
  refine ⟨?_, h.2⟩
  rintro rfl
  cases h.1

/-- What has a name in a folder is inside the working folder if the folder is. It starts like the
folder, except in the working folder itself, where it starts with the name. -/
theorem isInside_concat {l : Location} (h : l.isInside = true) {name : String}
    (hname : IsName name) : (l ++ [name]).isInside = true := by
  cases l with
  | nil =>
    obtain ⟨notUp, notRoot⟩ := ne_of_isName hname
    simp [isInside, notUp, notRoot]
  | cons first rest => exact h

/-- Above a location that only goes up there is one that goes up once more. The working folder
itself goes up not at all. -/
theorem parent_ups (count : Nat) :
    Location.parent (List.replicate count "..") = List.replicate (count + 1) ".." := by
  cases count with
  | zero => rfl
  | succ count =>
    have last : (List.replicate (count + 1) "..").getLast? = some ".." := by
      rw [List.replicate_succ', List.getLast?_concat]
    rw [Location.parent, last, ← List.replicate_succ']
    rfl

/-- Above a location that ends with a name there is what is in front of the name. The other
endings are the root and the steps up. -/
theorem parent_concat (l : Location) {name : String} (h : IsName name) :
    Location.parent (l ++ [name]) = l := by
  obtain ⟨notUp, notRoot⟩ := ne_of_isName h
  rw [Location.parent, List.getLast?_concat]
  split
  · rename_i h
    cases h
  · rename_i h
    cases h
    exact absurd rfl notUp
  · rename_i h
    cases h
    exact absurd rfl notRoot
  · exact List.dropLast_concat

/-- Above a proper location there is a proper one. -/
theorem Proper.parent {l : Location} (h : Proper l) : Proper l.parent := by
  cases h with
  | ups count =>
    rw [parent_ups]
    exact .ups (count + 1)
  | root => exact .root
  | down proper isName =>
    rw [parent_concat _ isName]
    exact proper

/-- A proper location without its last part is proper. -/
theorem Proper.dropLast {l : Location} (h : Proper l) : Proper l.dropLast := by
  cases h with
  | ups count =>
    rw [List.dropLast_replicate]
    exact .ups (count - 1)
  | root => exact .ups 0
  | down proper isName =>
    rw [List.dropLast_concat]
    exact proper

/-! ### Where paths lead -/

/-- Between two slashes there is none, so no name of a path can be the root. -/
theorem slash_not_mem_of_mem_splitPath {cs name : List Char} (h : name ∈ splitPath cs) :
    '/' ∉ name := by
  induction cs generalizing name with
  | nil =>
    rw [List.mem_singleton.mp h]
    exact List.not_mem_nil
  | cons c cs ih =>
    unfold splitPath at h
    split at h
    · -- There is always a first piece, so this case does not arise.
      rename_i hnil
      have some : ∀ cs, splitPath cs ≠ [] := by
        intro cs
        cases cs with
        | nil => exact List.cons_ne_nil _ _
        | cons c cs =>
          unfold splitPath
          split
          · exact List.cons_ne_nil _ _
          · split <;> exact List.cons_ne_nil _ _
      exact absurd hnil (some cs)
    · rename_i first names hsplit
      rw [hsplit] at ih
      split at h
      · rcases List.mem_cons.mp h with rfl | h
        · exact List.not_mem_nil
        · exact ih h
      · rename_i hslash
        rcases List.mem_cons.mp h with rfl | h
        · exact List.not_mem_cons_of_ne_of_not_mem (Ne.symm hslash) (ih List.mem_cons_self)
        · exact ih (List.mem_cons_of_mem _ h)

/-- The names of a path are steps that stay, go up, or go down to a name. Each of them keeps a
location proper. -/
theorem proper_move {l : Location} (h : Proper l) {text name : String}
    (hname : name ∈ pathNames text) : Proper (l.move (.ofName name)) := by
  obtain ⟨cs, hcs, rfl⟩ := List.mem_map.mp hname
  have noSlash := slash_not_mem_of_mem_splitPath (List.mem_filter.mp hcs).1
  have notRoot : String.ofList cs ≠ "/" := by
    intro same
    rw [← String.toList_inj, String.toList_ofList] at same
    rw [same] at noSlash
    exact noSlash List.mem_cons_self
  cases hstep : PathStep.ofName (String.ofList cs) with
  | stay => exact h
  | up => exact h.parent
  | down other =>
    have same : other = String.ofList cs := by
      unfold PathStep.ofName at hstep
      split at hstep
      · cases hstep
      · split at hstep <;> cases hstep
        rfl
    rw [same] at hstep ⊢
    exact .down h ⟨hstep, notRoot⟩

/-- Every path leads to a proper location. By induction on its steps, from the working folder or
from the root. -/
theorem proper_target (text : String) : Proper (PathName.ofText text).target := by
  have moves : ∀ (names : List String), (∀ name ∈ names, name ∈ pathNames text) → ∀ l, Proper l →
      Proper ((names.map PathStep.ofName).foldl Location.move l) := by
    intro names
    induction names with
    | nil => exact fun _ l h => h
    | cons name names ih =>
      intro sub l h
      exact ih (fun other hother => sub other (List.mem_cons_of_mem _ hother)) _
        (proper_move h (sub name List.mem_cons_self))
  refine moves _ (fun _ h => h) _ ?_
  show Proper (if _ then ["/"] else [])
  split
  · exact .root
  · exact .ups 0

/-! ### Locations as full paths -/

/-- The path of a location with one more name takes one more step. Where it starts depends on the
first name only. -/
theorem named_concat (root : String) (l : Location) {name : String} (h : name ≠ "/") :
    (Location.named root (l ++ [name])).start = (Location.named root l).start ∧
      (Location.named root (l ++ [name])).steps =
        (Location.named root l).steps ++ [PathStep.ofName name] := by
  cases l with
  | nil =>
    rw [List.nil_append]
    unfold Location.named
    split
    · rename_i heq
      cases heq
      exact absurd rfl h
    · exact ⟨rfl, rfl⟩
  | cons first rest =>
    rw [List.cons_append]
    by_cases hroot : first = "/"
    · subst hroot
      exact ⟨rfl, List.map_append⟩
    · have plain : ∀ names, Location.named root (first :: names) =
          ⟨Location.fullPath root (first :: names), [], (first :: names).map .ofName, false⟩ := by
        intro names
        unfold Location.named
        split
        · rename_i heq
          cases heq
          exact absurd rfl hroot
        · rfl
      rw [plain, plain]
      exact ⟨rfl, by rw [← List.cons_append, List.map_append]; rfl⟩

/-- The path of a proper location leads to it. By induction on how the location is proper, with
one step of the path for each name. -/
theorem target_named (root : String) {l : Location} (h : Proper l) :
    (l.named root).target = l := by
  -- One more name is one more move from where the path leads.
  have concat : ∀ {l : Location} {name : String}, name ≠ "/" → (l.named root).target = l →
      (Location.named root (l ++ [name])).target = l.move (.ofName name) := by
    intro l name hname hl
    obtain ⟨start, steps⟩ := named_concat root l hname
    rw [PathName.target, start, steps, List.foldl_append]
    show Location.move (l.named root).target (.ofName name) = _
    rw [hl]
  induction h with
  | ups count =>
    induction count with
    | zero => rfl
    | succ count ih =>
      rw [List.replicate_succ', concat (by decide) ih, ← List.replicate_succ']
      exact parent_ups count
  | root => rfl
  | down proper isName ih =>
    rw [concat isName.2 ih, isName.1]
    rfl

/-- The path of a location asks for no folder: it does not end with a slash. -/
theorem asFolder_named (root : String) (l : Location) : (l.named root).asFolder = false := by
  unfold Location.named
  split <;> rfl

/-- The text of the path of a location. -/
theorem text_named (root : String) (l : Location) : (l.named root).text = l.fullPath root := by
  unfold Location.named
  split <;> rfl

/-- The text of a path ends with the last name, and what is in front of it does not depend on this
name. So a shorter name gives a shorter path. -/
theorem exists_fullPath_concat (root : String) (l : Location) :
    ∃ front : String, ∀ name, IsName name →
      Location.fullPath root (l ++ [name]) = front ++ name := by
  -- First for names with slashes between them, then for paths, then for full paths.
  have joined : ∀ names : List String, ∃ front : String, ∀ name,
      "/".intercalate (names ++ [name]) = front ++ name := by
    intro names
    refine ⟨String.ofList (names.flatMap fun t => t.toList ++ "/".toList), fun name => ?_⟩
    rw [← String.toList_inj, toList_intercalate_concat, String.toList_append]
    exact congrArg (· ++ name.toList) String.toList_ofList.symm
  have path : ∀ l : Location, ∃ front : String, ∀ name, IsName name →
      Location.toPath (l ++ [name]) = front ++ name := by
    intro l
    by_cases hroot : l.head? = some "/"
    · obtain ⟨names, rfl⟩ := List.head?_eq_some_iff.mp hroot
      obtain ⟨front, hfront⟩ := joined names
      refine ⟨"/" ++ front, fun name _ => ?_⟩
      show "/" ++ "/".intercalate (names ++ [name]) = _
      rw [hfront, String.append_assoc]
    · obtain ⟨front, hfront⟩ := joined l
      refine ⟨front, fun name hname => ?_⟩
      unfold Location.toPath
      split
      · rename_i names heq
        cases l with
        | nil =>
          cases heq
          exact absurd rfl hname.2
        | cons first rest =>
          cases heq
          exact absurd rfl hroot
      · exact hfront name
  by_cases hroot : l.head? = some "/"
  · obtain ⟨names, rfl⟩ := List.head?_eq_some_iff.mp hroot
    exact path ("/" :: names)
  · obtain ⟨front, hfront⟩ :=
      path ((l.map PathStep.ofName).foldl Location.move (Location.ofPath root))
    refine ⟨front, fun name hname => ?_⟩
    unfold Location.fullPath
    split
    · rename_i names heq
      cases l with
      | nil =>
        cases heq
        exact absurd rfl hname.2
      | cons first rest =>
        cases heq
        exact absurd rfl hroot
    · rw [List.map_append, List.foldl_append, List.map_singleton, hname.1]
      exact hfront name hname

/-- A location whose path can be used: it is one, and no name in it is too long. Whether the
folders on the way exist is not part of this. -/
structure Usable (root : String) (l : Location) : Prop where
  check : (l.named root).check = .ok ()
  short : ∀ name ∈ l, name.utf8ByteSize ≤ nameLimit

/-- Where a file can be, so can one with a name that is not longer. A path is refused for a null
in it or for its length, and neither gets worse. -/
theorem Usable.sibling {root : String} {l : Location} {name other : String}
    (h : Usable root (l ++ [name])) (hname : IsName name) (hother : IsName other)
    (noNull : '\x00' ∉ other.toList) (shorter : other.utf8ByteSize ≤ name.utf8ByteSize) :
    Usable root (l ++ [other]) := by
  obtain ⟨front, hfront⟩ := exists_fullPath_concat root l
  have check := h.check
  refine ⟨?_, fun n hn => ?_⟩
  · unfold PathName.check PathName.hasNull at check ⊢
    rw [text_named, hfront name hname] at check
    rw [text_named, hfront other hother]
    split at check
    · cases check
    · rename_i clean
      split at check
      · cases check
      · split at check
        · cases check
        · rename_i fits
          have cleanOther : ¬(front ++ other).toList.contains '\x00' = true := by
            simp only [List.contains_iff_mem, String.toList_append, List.mem_append, not_or]
              at clean ⊢
            exact ⟨clean.1, noNull⟩
          have filled : front ++ other ≠ "" := by
            intro empty
            rw [← String.toList_inj, String.toList_append, String.toList_empty,
              List.append_eq_nil_iff] at empty
            rw [String.toList_eq_nil_iff.mp empty.2] at hother
            exact absurd hother (by decide)
          rw [String.utf8ByteSize_append] at fits
          have fitsOther : ¬pathLimit < (front ++ other).utf8ByteSize := by
            rw [String.utf8ByteSize_append]
            omega
          rw [if_neg cleanOther, if_neg filled, if_neg fitsOther]
  · rcases List.mem_append.mp hn with hn | hn
    · exact h.short n (List.mem_append_left _ hn)
    · rw [List.mem_singleton.mp hn]
      exact Nat.le_trans shorter
        (h.short name (List.mem_append_right _ (List.mem_singleton.mpr rfl)))

end Location

namespace FileTree

open Location

variable {t grown : FileTree} {root name : String} {l location : Location} {bytes : ByteArray}

/-! ### Walking a location -/

/-- A step that succeeds leads where it says, and its name is not too long. Steps that stay or go
up always succeed. -/
theorem stepTo_eq_ok {here : Location} {step : PathStep} (h : stepTo here step = .ok location) :
    location = here.move step ∧ ∀ name, step = .down name → name.utf8ByteSize ≤ nameLimit := by
  unfold stepTo at h
  split at h
  · split at h
    · cases h
    · rename_i other fits
      cases h
      refine ⟨rfl, fun name hname => ?_⟩
      cases hname
      exact Nat.le_of_not_lt fits
  · rename_i notDown
    cases h
    exact ⟨rfl, fun name hname => absurd hname (notDown name)⟩

/-- A walk that succeeds comes to where its steps lead, and no name on the way is too long. By
induction on the steps. -/
theorem eq_of_walk {here : Location} {steps : List PathStep}
    (h : t.walk here steps = .ok location) :
    location = steps.foldl Location.move here ∧
      ∀ name, .down name ∈ steps → name.utf8ByteSize ≤ nameLimit := by
  induction steps generalizing here with
  | nil =>
    cases h
    exact ⟨rfl, nofun⟩
  | cons step steps ih =>
    obtain ⟨next, henter, h⟩ := bind_eq_ok h
    obtain ⟨hnext, hshort⟩ := stepTo_eq_ok (enter_eq_ok_iff.mp henter).1
    obtain ⟨rfl, others⟩ := ih h
    refine ⟨by rw [hnext]; rfl, fun name hname => ?_⟩
    rcases List.mem_cons.mp hname with rfl | hname
    · exact hshort name rfl
    · exact others name hname

/-- The last step of a walk is a step from where the others lead. -/
theorem walk_concat (here : Location) (steps : List PathStep) (last : PathStep) :
    t.walk here (steps ++ [last]) =
      (t.walk here steps >>= fun folder => t.enter folder last) := by
  induction steps generalizing here with
  | nil =>
    show (t.enter here last >>= fun next => .ok next) = t.enter here last
    cases t.enter here last <;> rfl
  | cons step steps ih =>
    show (t.enter here step >>= fun next => t.walk next (steps ++ [last])) =
      ((t.enter here step >>= fun next => t.walk next steps) >>= _)
    cases t.enter here step with
    | error cause => rfl
    | ok next => exact ih next

/-- The names of a proper location that are steps down. The others are the steps up and the root,
which are short enough in any case. -/
theorem down_mem_steps (root : String) (h : Proper l) :
    ∀ name ∈ l, name = ".." ∨ name = "/" ∨ .down name ∈ (l.named root).steps := by
  induction h with
  | ups count => exact fun name hname => .inl (List.eq_of_mem_replicate hname)
  | root => exact fun name hname => .inr (.inl (List.mem_singleton.mp hname))
  | @down l last proper isName ih =>
    obtain ⟨-, steps⟩ := named_concat root l isName.2
    intro name hname
    rw [steps]
    rcases List.mem_append.mp hname with hname | hname
    · exact (ih name hname).imp_right (.imp_right (List.mem_append_left _))
    · rw [List.mem_singleton.mp hname, isName.1]
      exact .inr (.inr (List.mem_append_right _ List.mem_cons_self))

/-- A path that leads down to a location, step by step, through short names. So the names of the
location are short. -/
theorem short_of_steps (root : String) (h : Proper l)
    (steps : ∀ name, .down name ∈ (l.named root).steps → name.utf8ByteSize ≤ nameLimit) :
    ∀ name ∈ l, name.utf8ByteSize ≤ nameLimit := by
  intro name hname
  rcases down_mem_steps root h name hname with rfl | rfl | hdown
  · decide
  · decide
  · exact steps name hdown

/-- Where everything around is a folder, a proper location is reached. By induction on how the
location is proper. -/
theorem walk_named (root : String) (h : Proper l)
    (short : ∀ name ∈ l, name.utf8ByteSize ≤ nameLimit)
    (folders : ∀ other, other <+: l → t.isFolder other = true) :
    t.walk (l.named root).start (l.named root).steps = .ok l := by
  -- One more step from a location that was reached.
  have concat : ∀ {l : Location} {name : String} {next : Location}, name ≠ "/" →
      t.walk (l.named root).start (l.named root).steps = .ok l →
      t.enter l (.ofName name) = .ok next →
      t.walk (Location.named root (l ++ [name])).start (Location.named root (l ++ [name])).steps =
        .ok next := by
    intro l name next hname hwalk henter
    obtain ⟨start, steps⟩ := named_concat root l hname
    rw [start, steps, walk_concat, hwalk]
    exact henter
  induction h with
  | ups count =>
    induction count with
    | zero => rfl
    | succ count ih =>
      rw [List.replicate_succ'] at folders ⊢
      refine concat (by decide) (ih ?_ ?_) (enter_eq_ok_iff.mpr ⟨?_, folders _ List.prefix_rfl⟩)
      · exact fun name hname =>
          short name (by rw [List.replicate_succ']; exact List.mem_append_left _ hname)
      · exact fun other hother => folders other (hother.trans (List.prefix_append _ _))
      · rw [← List.replicate_succ', ← parent_ups]
        rfl
  | root => rfl
  | @down l name proper isName ih =>
    refine concat isName.2 (ih ?_ ?_) (enter_eq_ok_iff.mpr ⟨?_, folders _ List.prefix_rfl⟩)
    · exact fun other hother => short other (List.mem_append_left _ hother)
    · exact fun other hother => folders other (hother.trans (List.prefix_append _ _))
    · -- The one thing that can go wrong with a step down is its name.
      have fits : ¬nameLimit < name.utf8ByteSize :=
        Nat.not_lt_of_le (short name (List.mem_append_right _ List.mem_cons_self))
      rw [isName.1, stepTo, if_neg fits]
      rfl

/-- Everything around a file is a folder, since a tree has no other way to hold a file. -/
theorem isFolder_of_file (h : t.files.get? (l ++ [name]) = some bytes) {other : Location}
    (around : other <+: l) : t.isFolder other = true := by
  have key : l ++ [name] ∈ t.files.keys := by
    have mem := Table.mem_of_get? h
    exact List.mem_map.mpr ⟨_, mem, rfl⟩
  have proper : other ≠ l ++ [name] := by
    rintro rfl
    have long := around.length_le
    rw [List.length_append, List.length_singleton] at long
    omega
  simp only [isFolder, Bool.or_eq_true, List.any_eq_true]
  -- The file itself makes a folder of what is around it.
  refine .inr ⟨l ++ [name], key, ?_⟩
  rw [Bool.and_eq_true, List.isPrefixOf_iff_prefix]
  exact ⟨around.trans (List.prefix_append _ _), bne_iff_ne.mpr proper⟩

/-- What a path leads to is where its steps lead. The last step is not walked like the others, as
there need not be anything. -/
theorem eq_of_locate (h : Proper l) (hlocate : t.locate (l.named root) = .ok location) :
    location = l ∧ ∀ name ∈ l, name.utf8ByteSize ≤ nameLimit := by
  unfold locate at hlocate
  split at hlocate
  · rename_i hlast
    -- A path without steps leads to where it starts.
    have steps : (l.named root).steps = [] := List.getLast?_eq_none_iff.mp hlast
    cases hlocate
    refine ⟨?_, short_of_steps root h fun name hname => by rw [steps] at hname; cases hname⟩
    have target := target_named root h
    rw [PathName.target, steps] at target
    exact target
  · rename_i last hlast
    obtain ⟨folder, hwalk, hstep⟩ := bind_eq_ok hlocate
    rw [asFolder_named, if_neg Bool.false_ne_true] at hstep
    obtain ⟨before, hsteps⟩ := List.getLast?_eq_some_iff.mp hlast
    rw [hsteps, List.dropLast_concat] at hwalk
    obtain ⟨rfl, shortBefore⟩ := eq_of_walk hwalk
    obtain ⟨rfl, shortLast⟩ := stepTo_eq_ok hstep
    constructor
    · have target := target_named root h
      rw [PathName.target, hsteps, List.foldl_append] at target
      exact target
    · refine short_of_steps root h fun name hname => ?_
      rw [hsteps] at hname
      rcases List.mem_append.mp hname with hname | hname
      · exact shortBefore name hname
      · exact shortLast name (List.mem_singleton.mp hname).symm

/-- A file's neighbours can be looked for: where the folders are there, a name in the last of them
is found whether or not something has it. -/
theorem locate_named (root : String) (h : Proper l) (hname : IsName name)
    (short : ∀ other ∈ l ++ [name], other.utf8ByteSize ≤ nameLimit)
    (folders : ∀ other, other <+: l → t.isFolder other = true) :
    t.locate (Location.named root (l ++ [name])) = .ok (l ++ [name]) := by
  obtain ⟨start, steps⟩ := named_concat root l hname.2
  have fits : ¬nameLimit < name.utf8ByteSize :=
    Nat.not_lt_of_le (short name (List.mem_append_right _ List.mem_cons_self))
  have walked :=
    walk_named root h (fun other hother => short other (List.mem_append_left _ hother)) folders
  rw [locate, steps, List.getLast?_concat]
  dsimp only
  rw [List.dropLast_concat, start, walked]
  show (if _ then _ else stepTo l (.ofName name)) = _
  rw [asFolder_named, if_neg Bool.false_ne_true, hname.1, stepTo, if_neg fits]
  rfl

/-! ### A tree as a table -/

/-- **Files by location.** A file is read exactly if the tree has it, and its path can be used.
The folders around the file are there because the file is. -/
theorem read_named_iff (h : Proper l) (hname : IsName name) :
    t.read (Location.named root (l ++ [name])) = .ok bytes ↔
      Usable root (l ++ [name]) ∧ t.files.get? (l ++ [name]) = some bytes := by
  rw [read, PathName.guarded_eq_ok_iff]
  constructor
  · rintro ⟨check, hread⟩
    obtain ⟨location, hlocate, hread⟩ := bind_eq_ok hread
    obtain ⟨rfl, short⟩ := eq_of_locate (.down h hname) hlocate
    split at hread
    · rename_i found hfound
      cases hread
      exact ⟨⟨check, short⟩, hfound⟩
    · cases hread
  · rintro ⟨usable, hfound⟩
    refine ⟨usable.check, ?_⟩
    rw [locate_named root h hname usable.short fun other => isFolder_of_file hfound]
    simp only [bind, Except.bind, hfound]
    rfl

/-- Writing to a location sets its entry. The path can be used afterwards, because it was used. -/
theorem write_named (h : Proper l) (hname : IsName name)
    (hwrite : t.write (Location.named root (l ++ [name])) bytes = .ok grown) :
    Usable root (l ++ [name]) ∧ grown = t.withFile (l ++ [name]) bytes := by
  obtain ⟨location, check, place, rfl⟩ := write_eq_ok_iff.mp hwrite
  obtain ⟨rfl, short⟩ := eq_of_locate (.down h hname) (locate_of_placeFor place)
  exact ⟨⟨check, short⟩, rfl⟩

/-- Making a folder adds it, or finds it. In both cases no file is touched. -/
theorem makeFolder_named (h : Proper l) (hmake : t.makeFolder (l.named root) = .ok grown) :
    grown = t ∨ grown = { t with folders := l :: t.folders } := by
  obtain ⟨-, hguarded⟩ := PathName.guarded_eq_ok_iff.mp hmake
  obtain ⟨location, hlocate, made⟩ := bind_eq_ok hguarded
  rw [(eq_of_locate h hlocate).1] at made
  split at made
  · cases made
    exact .inl rfl
  · split at made
    · cases made
    · cases made
      exact .inr rfl

/-- A file that is read is there, for a tool that asks before it reads. -/
theorem holds_of_read {p : PathName} (h : t.read p = .ok bytes) : t.holds p = .ok true := by
  obtain ⟨check, hread⟩ := PathName.guarded_eq_ok_iff.mp h
  obtain ⟨location, hlocate, hread⟩ := bind_eq_ok hread
  have located : p.guarded (t.locate p) = .ok location :=
    PathName.guarded_eq_ok_iff.mpr ⟨check, hlocate⟩
  split at hread
  · rename_i found hfound
    rw [holds, located]
    simp [isPresent, isFile, hfound]
  · cases hread

/-- Beside a file, looking for a name that is not longer never fails. The answer is what the tree
says about the location. -/
theorem holds_beside (h : Proper l) (hname : IsName name) {other : String} (hother : IsName other)
    (noNull : '\x00' ∉ other.toList) (shorter : other.utf8ByteSize ≤ name.utf8ByteSize)
    (hread : t.read (Location.named root (l ++ [name])) = .ok bytes) :
    t.holds (Location.named root (l ++ [other])) = .ok (t.isPresent (l ++ [other])) := by
  obtain ⟨usable, hfound⟩ := (read_named_iff h hname).mp hread
  have usableOther := usable.sibling hname hother noNull shorter
  have located := locate_named root h hother usableOther.short
    fun other => isFolder_of_file hfound
  rw [holds, PathName.guarded_eq_ok_iff.mpr ⟨usableOther.check, located⟩]

/-! ### Growth below a folder -/

/-- What a tool that works on the folder `base` may have done to a tree: of the files it has
changed only those that have one of the given names in `base`, and it has made no folder deeper
than `base`. The names are those of the artifacts that the tool leaves. -/
structure Grows (base : Location) (names : List String) (t grown : FileTree) : Prop where
  files : ∀ other, (∀ name ∈ names, other ≠ base ++ [name]) →
    grown.files.get? other = t.files.get? other
  folders : ∀ other, base.length < other.length → grown.isFolder other = true →
    t.isFolder other = true

/-- A tool that does nothing has changed no files. -/
theorem Grows.refl (base : Location) (names : List String) (t : FileTree) :
    Grows base names t t :=
  ⟨fun _ _ => rfl, fun _ _ h => h⟩

/-- One tool after another has changed the files of both. -/
theorem Grows.trans {base : Location} {names more : List String} {last : FileTree}
    (first : Grows base names t grown) (second : Grows base more grown last) :
    Grows base (names ++ more) t last where
  files other hother := by
    rw [second.files other fun name hname => hother name (List.mem_append_right _ hname),
      first.files other fun name hname => hother name (List.mem_append_left _ hname)]
  folders other deep h := first.folders other deep (second.folders other deep h)

/-- A tool that works on a folder inside the working folder touches no file outside of it. -/
theorem Grows.get?_of_outside {base other : Location} {names : List String}
    (h : Grows base names t grown) (inside : base.isInside = true)
    (isName : ∀ name ∈ names, IsName name) (outside : other.isInside = false) :
    grown.files.get? other = t.files.get? other := by
  refine h.files other fun name hname same => ?_
  rw [same, Location.isInside_concat inside (isName name hname)] at outside
  cases outside

/-- A file in the folder makes no deeper folder, and no other file is changed. -/
theorem grows_withFile (base : Location) (name : String) (t : FileTree) (bytes : ByteArray) :
    Grows base [name] t (t.withFile (base ++ [name]) bytes) where
  files other hother := by
    rw [withFile, Table.get?_set, if_neg (hother name List.mem_cons_self)]
  folders other deep h := by
    rcases (isFolder_withFile t _ other bytes).mp h with h | h
    · exact h
    · -- A location deeper than the folder is not above a file in it.
      rw [Bool.and_eq_true, List.isPrefixOf_iff_prefix, bne_iff_ne] at h
      have short := h.1.length_le
      rw [List.length_append, List.length_singleton] at short
      refine absurd (h.1.eq_of_length ?_) h.2
      rw [List.length_append, List.length_singleton]
      omega

/-- A file that is not among the changed ones is read as before. This holds in both directions, so
a file that could not be read still cannot. -/
theorem Grows.read {base : Location} {names : List String} (grows : Grows base names t grown)
    (h : Proper l) (hname : IsName name) (other : ∀ n ∈ names, l ++ [name] ≠ base ++ [n]) :
    grown.read (Location.named root (l ++ [name])) = .ok bytes ↔
      t.read (Location.named root (l ++ [name])) = .ok bytes := by
  rw [read_named_iff h hname, read_named_iff h hname, grows.files _ other]

/-- Where nothing was, and nothing was changed, nothing is. It has to be deeper than the folder,
because a folder around it may have been made. -/
theorem Grows.isPresent {base : Location} {names : List String} (grows : Grows base names t grown)
    (deep : base.length < l.length) (other : ∀ n ∈ names, l ≠ base ++ [n])
    (absent : t.isPresent l = false) : grown.isPresent l = false := by
  simp only [FileTree.isPresent, isFile, Bool.or_eq_false_iff] at absent ⊢
  refine ⟨by rw [grows.files l other]; exact absent.1, ?_⟩
  by_contra folder
  have old := grows.folders l deep (Bool.not_eq_false _ ▸ folder)
  rw [absent.2] at old
  cases old

end FileTree

end Tickscript
