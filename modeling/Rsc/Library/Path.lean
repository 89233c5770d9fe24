import Rsc.Library.Text
import Mathlib.Data.Set.List
import Mathlib.Data.UInt

/-!
Paths of Unix, as `std::path` reads them: bytes, parsed into components. What is joined to a
path comes after its components (`components_join`), unless it is absolute.
-/

namespace Rsc.Library

abbrev Path : Type := List UInt8

namespace Path

def separator : UInt8 := 0x2F

def dot : UInt8 := 0x2E

/-! ## Components -/

inductive Component
  | rootDir
  | curDir
  | parentDir
  | normal (name : List UInt8)
  deriving DecidableEq

def Component.isNormal : Component → Bool
  | .normal _ => true
  | _ => false

/-- What is between the separators. -/
def segments (path : Path) : List (List UInt8) := path.splitOn separator

def IsAbsolute (path : Path) : Prop := path.head? = some separator

instance (path : Path) : Decidable path.IsAbsolute :=
  inferInstanceAs (Decidable (_ = _))

/-- A repeated separator and a dot between separators are no components. -/
def parseSingleComponent (segment : List UInt8) : Option Component :=
  if segment = [] then none
  else if segment = [dot] then none
  else if segment = [dot, dot] then some .parentDir
  else some (.normal segment)

/-- A path may start at the root, or with a dot. -/
def startDir (path : Path) : List Component :=
  if path.IsAbsolute then [.rootDir]
  else if path.segments.head? = some [dot] then [.curDir]
  else []

/-- `Path::components`. -/
def components (path : Path) : List Component :=
  path.startDir ++ path.segments.filterMap parseSingleComponent

/-- `Path::join`: an absolute path replaces the base. -/
def join (base path : Path) : Path :=
  if path.IsAbsolute then path
  else if base = [] ∨ base.getLast? = some separator then base ++ path
  else base ++ separator :: path

variable {base path : Path}

theorem segments_append_separator (base path : Path) :
    segments (base ++ separator :: path) = base.segments ++ path.segments :=
  List.splitOn_append_cons_self _ _

theorem startDir_append_separator (hbase : base ≠ []) :
    startDir (base ++ separator :: path) = base.startDir := by
  have habsolute : IsAbsolute (base ++ separator :: path) ↔ base.IsAbsolute := by
    rw [IsAbsolute, IsAbsolute, List.head?_append_of_ne_nil _ hbase]
  have hhead : (base.segments ++ path.segments).head? = base.segments.head? :=
    List.head?_append_of_ne_nil _ (List.splitOn_ne_nil _ _)
  simp only [startDir, habsolute, segments_append_separator, hhead]

/-- The components of a path follow those of the base. -/
theorem components_append_separator (hbase : base ≠ []) :
    components (base ++ separator :: path) =
      base.components ++ path.segments.filterMap parseSingleComponent := by
  rw [components, startDir_append_separator hbase, segments_append_separator,
    List.filterMap_append, components, List.append_assoc]

/-- A separator at the end adds nothing. -/
theorem components_concat_separator (hbase : base ≠ []) :
    components (base ++ [separator]) = base.components := by
  rw [components_append_separator hbase]
  exact List.append_nil _

theorem components_separator (path : Path) :
    components (separator :: path) = .rootDir :: path.segments.filterMap parseSingleComponent := by
  have hsegments : segments (separator :: path) = [] :: path.segments :=
    segments_append_separator [] path
  rw [components, startDir, if_pos (show IsAbsolute (separator :: path) from rfl), hsegments]
  rfl

/-- What is joined to a path comes after its components. -/
theorem components_join (h : path.startDir = []) :
    components (base.join path) = base.components ++ path.components := by
  have hrelative : ¬ path.IsAbsolute := by
    intro habsolute
    rw [startDir, if_pos habsolute] at h
    cases h
  have hpath : path.components = path.segments.filterMap parseSingleComponent := by
    rw [components, h, List.nil_append]
  rw [join, if_neg hrelative]
  split
  · rename_i hplain
    rcases hplain with rfl | hlast
    · simp [components, startDir, IsAbsolute, segments, parseSingleComponent]
    · obtain ⟨front, rfl⟩ := List.getLast?_eq_some_iff.mp hlast
      rw [List.append_assoc, List.singleton_append, hpath]
      cases front with
      | nil =>
        rw [List.nil_append, components_separator, List.nil_append, components_separator]
        rfl
      | cons b front =>
        rw [components_append_separator (by simp), components_concat_separator (by simp)]
  · rename_i hplain
    rw [not_or] at hplain
    rw [components_append_separator hplain.1, hpath]

/-- The path `a/.//b/../c/`. -/
example : components [97, 47, 46, 47, 47, 98, 47, 46, 46, 47, 99, 47] =
    [.normal [97], .normal [98], .parentDir, .normal [99]] := by decide

/-! ## Normal components only -/

theorem startDir_eq_nil :
    path.startDir = [] ↔ ¬ path.IsAbsolute ∧ path.segments.head? ≠ some [dot] := by
  rw [startDir]
  split
  · rename_i h
    simp [h]
  · rename_i h
    split
    · rename_i hdot
      simp [hdot]
    · rename_i hdot
      simp [h, hdot]

theorem isNormal_of_mem_startDir {c : Component} (h : c ∈ path.startDir) : c.isNormal = false := by
  rw [startDir] at h
  split at h
  · rw [List.mem_singleton.mp h]
    rfl
  · split at h
    · rw [List.mem_singleton.mp h]
      rfl
    · cases h

/-- What a component can be. -/
theorem parseSingleComponent_inv {segment : List UInt8} {c : Component}
    (h : parseSingleComponent segment = some c) : segment ≠ [] ∧ segment ≠ [dot] ∧
      (segment = [dot, dot] ∧ c = .parentDir ∨ segment ≠ [dot, dot] ∧ c = .normal segment) := by
  rw [parseSingleComponent] at h
  split at h
  · cases h
  · rename_i hnonempty
    split at h
    · cases h
    · rename_i hdot
      split at h
      · rename_i hdots
        cases h
        exact ⟨hnonempty, hdot, .inl ⟨hdots, rfl⟩⟩
      · rename_i hdots
        cases h
        exact ⟨hnonempty, hdot, .inr ⟨hdots, rfl⟩⟩

/-- There are other components than normal ones if the path is absolute, starts with a dot, or
has two dots between separators. -/
theorem all_isNormal : path.components.all Component.isNormal = true ↔
    ¬ path.IsAbsolute ∧ path.segments.head? ≠ some [dot] ∧ [dot, dot] ∉ path.segments := by
  rw [← and_assoc, ← startDir_eq_nil, List.all_eq_true]
  constructor
  · intro hall
    have hnone : path.startDir = [] := by
      rw [List.eq_nil_iff_forall_not_mem]
      intro c hc
      have hnormal := hall c (List.mem_append_left _ hc)
      rw [isNormal_of_mem_startDir hc] at hnormal
      cases hnormal
    refine ⟨hnone, fun hdots => ?_⟩
    have hmem : Component.parentDir ∈ path.components :=
      List.mem_append_right _ (List.mem_filterMap.mpr ⟨_, hdots, rfl⟩)
    cases hall _ hmem
  · rintro ⟨hnone, hdots⟩ c hc
    rw [components, hnone, List.nil_append] at hc
    obtain ⟨segment, hmem, hparse⟩ := List.mem_filterMap.mp hc
    obtain ⟨-, -, ⟨rfl, -⟩ | ⟨-, rfl⟩⟩ := parseSingleComponent_inv hparse
    · exact (hdots hmem).elim
    · rfl

/-- A relative path that is not empty starts with a component. -/
theorem components_ne_nil (hpath : path ≠ []) (hall : path.components.all Component.isNormal = true) :
    path.components ≠ [] := by
  obtain ⟨hrelative, hdot, hdots⟩ := all_isNormal.mp hall
  cases path with
  | nil => exact (hpath rfl).elim
  | cons b path =>
    have hb : b ≠ separator := fun h => hrelative (h ▸ rfl)
    obtain ⟨rest, segs, hsegments⟩ : ∃ rest segs, segments (b :: path) = (b :: rest) :: segs := by
      cases hsplit : path.splitOn separator with
      | nil => exact (List.splitOn_ne_nil _ _ hsplit).elim
      | cons rest segs =>
        refine ⟨rest, segs, ?_⟩
        rw [segments, List.splitOn_cons_eq_if_modifyHead, if_neg (by simpa using hb), hsplit]
        rfl
    rw [hsegments] at hdot hdots
    have hparse : parseSingleComponent (b :: rest) = some (.normal (b :: rest)) := by
      rw [parseSingleComponent, if_neg (by simp), if_neg fun h => hdot (by rw [h]; rfl),
        if_neg fun h => hdots (by rw [h]; exact .head _)]
    rw [components, hsegments, List.filterMap_cons_some hparse]
    simp

/-! ## Names -/

/-- The name of an entry of a directory. -/
structure Name where
  bytes : List UInt8
  nonempty : bytes ≠ []
  noSeparator : separator ∉ bytes
  notDot : bytes ≠ [dot]
  notDots : bytes ≠ [dot, dot]
  deriving DecidableEq

namespace Name

variable (name : Name)

theorem segments_bytes : segments name.bytes = [name.bytes] :=
  List.splitOn_eq_singleton name.noSeparator

theorem isAbsolute_bytes : ¬ IsAbsolute name.bytes := fun h =>
  name.noSeparator (List.mem_of_mem_head? h)

theorem startDir_bytes : startDir name.bytes = [] := by
  refine startDir_eq_nil.mpr ⟨name.isAbsolute_bytes, ?_⟩
  rw [name.segments_bytes]
  simpa using name.notDot

@[simp] theorem components_bytes : components name.bytes = [.normal name.bytes] := by
  rw [components, name.startDir_bytes, name.segments_bytes]
  simp [parseSingleComponent, name.nonempty, name.notDot, name.notDots]

theorem components_join (base : Path) :
    components (base.join name.bytes) = base.components ++ [.normal name.bytes] := by
  rw [Path.components_join name.startDir_bytes, name.components_bytes]

end Name

theorem exists_name {segment : List UInt8} (hsegment : separator ∉ segment) {c : Component}
    (h : parseSingleComponent segment = some c) (hnormal : c.isNormal = true) :
    ∃ name : Name, c = .normal name.bytes := by
  obtain ⟨hnonempty, hdot, ⟨-, rfl⟩ | ⟨hdots, rfl⟩⟩ := parseSingleComponent_inv h
  · cases hnormal
  · exact ⟨⟨segment, hnonempty, hsegment, hdot, hdots⟩, rfl⟩

/-- Normal components are names. -/
theorem exists_names (hall : path.components.all Component.isNormal = true) :
    ∃ names : List Name, path.components = names.map fun name => .normal name.bytes := by
  have hforall : ∀ c ∈ path.components, ∃ name : Name, Component.normal name.bytes = c := by
    intro c hc
    have hnormal := List.all_eq_true.mp hall c hc
    rcases List.mem_append.mp hc with hstart | hsegment
    · rw [isNormal_of_mem_startDir hstart] at hnormal
      cases hnormal
    · obtain ⟨segment, hmem, hparse⟩ := List.mem_filterMap.mp hsegment
      obtain ⟨name, hname⟩ := exists_name (Text.notMem_of_mem_splitOn hmem) hparse hnormal
      exact ⟨name, hname.symm⟩
  have hrange : path.components ∈
      Set.range (List.map fun name : Name => Component.normal name.bytes) := by
    rw [Set.range_list_map]
    exact hforall
  obtain ⟨names, hnames⟩ := hrange
  exact ⟨names, hnames.symm⟩

/-! ## Joins of names -/

theorem exists_join (base : Path) :
    ∃ front, ∀ path : Path, ¬ path.IsAbsolute → base.join path = front ++ path := by
  by_cases h : base = [] ∨ base.getLast? = some separator
  · exact ⟨base, fun path hpath => by rw [join, if_neg hpath, if_pos h]⟩
  · refine ⟨base ++ [separator], fun path hpath => ?_⟩
    rw [join, if_neg hpath, if_neg h, List.append_assoc]
    rfl

/-- A path that ends in a name gets a separator. -/
theorem Name.join_append (name : Name) (front : Path) (hpath : ¬ path.IsAbsolute) :
    join (front ++ name.bytes) path = front ++ name.bytes ++ separator :: path := by
  rw [join, if_neg hpath, if_neg]
  rintro (hnil | hlast)
  · exact name.nonempty (List.append_eq_nil_iff.mp hnil).2
  · rw [List.getLast?_append_of_ne_nil _ name.nonempty] at hlast
    exact name.noSeparator (List.mem_of_getLast? hlast)

theorem Name.components_two (name name' : Name) :
    components (name.bytes ++ separator :: name'.bytes) =
      [.normal name.bytes, .normal name'.bytes] := by
  have hjoin := name.join_append [] name'.isAbsolute_bytes
  rw [List.nil_append] at hjoin
  rw [← hjoin, name'.components_join, name.components_bytes]
  rfl

/-- A name and a path are joined one after the other, or at once. -/
theorem Name.join_join (name : Name) (base : Path) (hpath : ¬ path.IsAbsolute) :
    (base.join name.bytes).join path = base.join (name.bytes ++ separator :: path) := by
  obtain ⟨front, hfront⟩ := base.exists_join
  have hrelative : ¬ IsAbsolute (name.bytes ++ separator :: path) := by
    rw [IsAbsolute, List.head?_append_of_ne_nil _ name.nonempty]
    exact name.isAbsolute_bytes
  rw [hfront _ name.isAbsolute_bytes, hfront _ hrelative, name.join_append front hpath,
    List.append_assoc]

/-! ## Extensions -/

/-- What is before and after the last separator. -/
def rsplitOnce {α : Type} [DecidableEq α] (a : α) (xs : List α) : Option (List α × List α) :=
  match xs.reverse.dropWhile (· ≠ a) with
  | [] => none
  | _ :: before => some (before.reverse, (xs.reverse.takeWhile (· ≠ a)).reverse)

/-- `Path::file_name`. -/
def fileName (path : Path) : Option (List UInt8) :=
  match path.components.getLast? with
  | some (.normal name) => some name
  | _ => none

/-- What is before and after the last dot, where a dot at the start does not count. -/
def rsplitFileAtDot (file : List UInt8) : Option (List UInt8) × Option (List UInt8) :=
  if file = [dot, dot] then (some file, none)
  else match rsplitOnce dot file with
    | none => (none, some file)
    | some (before, after) => if before = [] then (some file, none) else (some before, some after)

/-- `Path::extension`. -/
def extension (path : Path) : Option (List UInt8) := do
  let (before, after) := rsplitFileAtDot (← path.fileName)
  before.bind fun _ => after

/-- `Path::file_stem`. -/
def fileStem (path : Path) : Option (List UInt8) := do
  let (before, after) := rsplitFileAtDot (← path.fileName)
  before.or after

section

variable {α : Type} [DecidableEq α] {a : α}

theorem rsplitOnce_of_notMem {xs : List α} (h : a ∉ xs) : rsplitOnce a xs = none := by
  have hall : ∀ x ∈ xs.reverse, decide (x ≠ a) = true := by
    intro x hx
    simpa using fun heq : x = a => h (heq ▸ List.mem_reverse.mp hx)
  rw [rsplitOnce, List.dropWhile_eq_nil_iff.mpr hall]

theorem rsplitOnce_append {before after : List α} (h : a ∉ after) :
    rsplitOnce a (before ++ a :: after) = some (before, after) := by
  have hall : ∀ x ∈ after.reverse, decide (x ≠ a) = true := by
    intro x hx
    simpa using fun heq : x = a => h (heq ▸ List.mem_reverse.mp hx)
  have hreverse : (before ++ a :: after).reverse = after.reverse ++ a :: before.reverse := by simp
  rw [rsplitOnce, hreverse, List.dropWhile_append_of_pos hall, List.takeWhile_append_of_pos hall]
  simp

end

theorem exists_last {α : Type} {a : α} {xs : List α} (h : a ∈ xs) :
    ∃ before after, xs = before ++ a :: after ∧ a ∉ after := by
  obtain ⟨after, before, hreverse, hnot⟩ := List.eq_append_cons_of_mem (List.mem_reverse.mpr h)
  refine ⟨before.reverse, after.reverse, ?_, by simpa using hnot⟩
  rw [← List.reverse_reverse xs, hreverse]
  simp

theorem Name.fileName_bytes (name : Name) : fileName name.bytes = some name.bytes := by
  rw [fileName, name.components_bytes]
  rfl

end Path

end Rsc.Library
