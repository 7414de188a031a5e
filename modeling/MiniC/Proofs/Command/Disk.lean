import MiniC.Command.Disk

/-!
# Writing to a disk

Opening a path for writing leads to a file, which is emptied or made, or to a device. Every folder
on the way to that file stays a folder when something is stored there, so the path leads to the file
again, and everything else on the disk is found as before.
-/

namespace MiniC

/-- Where something that is written goes. -/
inductive Sink where
  /-- To the regular file of the names. -/
  | file (names : List String)
  /-- To a device. -/
  | device (d : Device)
  deriving DecidableEq, Repr

/-- Where something goes that is written to a place, if that is possible. -/
def Place.sink? : Place → Option Sink
  | .folder _ => none
  | .file names _ => some (.file names)
  | .device d => some (.device d)
  | .free names => some (.file names)

namespace Disk

/-- Where something goes that is written to a path, if the path can be opened for writing. -/
def sink? (d : Disk) (path : String) : Option Sink :=
  match d.find path with
  | .ok place => if endsInSlash path then none else place.sink?
  | .error _ => none

variable {d : Disk}

theorem node?_store_self {names : List String} (h : names ≠ []) (node : Node) :
    (d.store names node).node? names = some node := by
  rw [node?, if_neg (by simpa using h), store, List.lookup_cons_self]

theorem node?_store_of_ne {names other : List String} (h : other ≠ names) (node : Node) :
    (d.store names node).node? other = d.node? other := by
  have hlookup : ∀ nodes : List (List String × Node),
      (nodes.filter (·.1 ≠ names)).lookup other = nodes.lookup other := by
    intro nodes
    induction nodes with
    | nil => rfl
    | cons entry nodes ih =>
      obtain ⟨key, value⟩ := entry
      by_cases hkey : key = names
      · have hother : (other == key) = false := beq_false_of_ne (hkey ▸ h)
        rw [List.filter_cons_of_neg (by simpa using hkey), ih, List.lookup_cons, hother]
      · rw [List.filter_cons_of_pos (by simpa using hkey), List.lookup_cons, List.lookup_cons, ih]
  have hnames : (other == names) = false := beq_false_of_ne h
  rw [node?, node?, store, List.lookup_cons, hnames, hlookup]

/-- Only what was stored last under the names is kept. -/
theorem store_store (d : Disk) (names : List String) (first second : Node) :
    (d.store names first).store names second = d.store names second := by
  simp [store]

/-- A walk ends at a regular file or a free name, where no folder is. -/
theorem node?_ne_folder_of_walk {here names target : List String} {place : Place}
    (h : d.walk here names = .ok place) (hsink : place.sink? = some (.file target)) :
    d.node? target ≠ some .folder := by
  fun_induction walk d here names with
  | case1 here =>
    cases h
    cases hsink
  | case2 here names ih => exact ih h
  | case3 here names hdot ih => exact ih h
  | case4 => cases h
  | case5 here name hdot hup hlong names hnode ih => exact ih h
  | case6 here name hdot hup hlong old hnode =>
    cases h
    cases hsink
    simp [hnode]
  | case7 =>
    cases h
    cases hsink
  | case8 here name hdot hup hlong hnode =>
    cases h
    cases hsink
    simp [hnode]
  | case9 => cases h
  | case10 => cases h

/-- A step to a name where a file was stored ends at the file. -/
theorem walk_store_last (here : List String) {name : String} (hdot : name ≠ ".") (hup : name ≠ "..")
    (hlong : ¬ nameMax < name.utf8ByteSize) (content : Bytes) :
    (d.store (here ++ [name]) (.file content)).walk here [name] =
      .ok (.file (here ++ [name]) content) := by
  have hnode := node?_store_self (d := d) (List.append_ne_nil_of_right_ne_nil here
    (List.cons_ne_nil name [])) (.file content)
  unfold walk
  rw [if_neg hdot, if_neg hup, if_neg hlong, hnode]

/-- A walk that ends at a regular file or a free name ends there again after a file was stored under
it. -/
theorem walk_store {here names target : List String} {place : Place}
    (h : d.walk here names = .ok place) (hsink : place.sink? = some (.file target))
    (content : Bytes) :
    (d.store target (.file content)).walk here names = .ok (.file target content) := by
  have hfolder := node?_ne_folder_of_walk h hsink
  fun_induction walk d here names with
  | case1 here =>
    cases h
    cases hsink
  | case2 here names ih =>
    unfold walk
    rw [if_pos rfl]
    exact ih h
  | case3 here names hdot ih =>
    unfold walk
    rw [if_neg hdot, if_pos rfl]
    exact ih h
  | case4 => cases h
  | case5 here name hdot hup hlong names hnode ih =>
    have hne : here ++ [name] ≠ target := by
      rintro rfl
      exact hfolder hnode
    unfold walk
    rw [if_neg hdot, if_neg hup, if_neg hlong, node?_store_of_ne hne, hnode]
    exact ih h
  | case6 here name hdot hup hlong old hnode =>
    cases h
    cases hsink
    exact walk_store_last here hdot hup hlong content
  | case7 =>
    cases h
    cases hsink
  | case8 here name hdot hup hlong hnode =>
    cases h
    cases hsink
    exact walk_store_last here hdot hup hlong content
  | case9 => cases h
  | case10 => cases h

section File

variable {path : String} {names : List String}

/-- A path that does not end in a slash is opened by the place it leads to. -/
theorem create_of_find_eq {place : Place} (h : d.find path = .ok place) :
    d.create path =
      if endsInSlash path then .error .isFolder
      else
        match place.sink? with
        | none => .error .isFolder
        | some (.file names) => .ok (d.store names (.file []))
        | some (.device _) => .ok d := by
  rw [create, h]
  cases place <;> simp only [bind, Except.bind] <;> split <;> rfl

/-- A path that can be opened for writing is found, and it leads to no folder. -/
theorem exists_find_of_sink? {sink : Sink} (h : d.sink? path = some sink) :
    ∃ place, d.find path = .ok place ∧ endsInSlash path = false ∧ place.sink? = some sink := by
  unfold sink? at h
  split at h
  next place hfind =>
    split at h
    next => cases h
    next hslash => exact ⟨place, hfind, by simpa using hslash, h⟩
  next => cases h

theorem find_store (h : d.sink? path = some (.file names)) (content : Bytes) :
    (d.store names (.file content)).find path = .ok (.file names content) := by
  obtain ⟨place, hfind, hslash, hplace⟩ := exists_find_of_sink? h
  unfold find at hfind ⊢
  split at hfind
  next => cases hfind
  next hpath =>
    split at hfind
    next => cases hfind
    next hmax =>
      rw [if_neg hpath, if_neg hmax]
      exact walk_store hfind hplace content

/-- Opening a file for writing empties it. -/
theorem create_of_sink?_file (h : d.sink? path = some (.file names)) :
    d.create path = .ok (d.store names (.file [])) := by
  obtain ⟨place, hfind, hslash, hplace⟩ := exists_find_of_sink? h
  rw [create_of_find_eq hfind, if_neg (by simp [hslash])]
  cases place <;> cases hplace <;> rfl

/-- What is written to an open file replaces as much of its content. -/
theorem write_store (h : d.sink? path = some (.file names)) (old content : Bytes) :
    (d.store names (.file old)).write path content =
      .ok (d.store names (.file (content ++ old.drop content.length))) := by
  rw [write, find_store h old]
  exact congrArg Except.ok (d.store_store names (.file old) _)

/-- What is written to a file that was just opened is all that it holds. -/
theorem write_store_nil (h : d.sink? path = some (.file names)) (content : Bytes) :
    (d.store names (.file [])).write path content = .ok (d.store names (.file content)) := by
  rw [write_store h, List.drop_nil, List.append_nil]

/-- The content of a file is what was stored there. -/
theorem read?_store (h : d.sink? path = some (.file names)) (content : Bytes) :
    (d.store names (.file content)).read? path = some content := by
  obtain ⟨place, hfind, hslash, hplace⟩ := exists_find_of_sink? h
  rw [read?, find_store h content]
  simp [hslash]

end File

/-- Opening a device for writing leaves the disk as it is. -/
theorem find_and_create_of_sink?_device {path : String} {device : Device}
    (h : d.sink? path = some (.device device)) :
    d.find path = .ok (.device device) ∧ d.create path = .ok d := by
  obtain ⟨place, hfind, hslash, hplace⟩ := exists_find_of_sink? h
  cases place <;> cases hplace
  refine ⟨hfind, ?_⟩
  rw [create_of_find_eq hfind, if_neg (by simp [hslash])]
  rfl

/-- A path whose writes go nowhere cannot be opened for writing. -/
theorem exists_create_error_of_sink?_none {path : String} (h : d.sink? path = none) :
    ∃ e, d.create path = .error e := by
  unfold sink? at h
  split at h
  next place hfind =>
    rw [create_of_find_eq hfind]
    split at h
    next hslash => exact ⟨_, if_pos hslash⟩
    next hslash =>
      rw [if_neg hslash, h]
      exact ⟨_, rfl⟩
  next e hfind =>
    rw [create, hfind]
    exact ⟨e, rfl⟩

end Disk

end MiniC
