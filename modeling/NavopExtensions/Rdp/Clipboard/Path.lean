import NavopExtensions.Lib.Fallible

/-!
# Clipboard paths

`RelativeClipboardPath` (`rdp-helper/src/clipboard/path.rs`): the path of one entry of a file list,
relative to the list, as a list of components. A value of the type has passed the checks of its
only constructor, so the structure carries them.

Two things come from outside the crate, `str::to_lowercase` and `is_windows_device_name`. They are
the fields of `NameRules`; of the first the proofs use that lowercasing introduces no backslash.
-/

namespace Navop
namespace Rdp
namespace Clipboard

open Checks

/-! ### Limits -/

/-- `MAX_CLIPBOARD_ENTRY_COUNT`. -/
def maxClipboardEntryCount : Nat := 10000

/-- `MAX_CLIPBOARD_DIRECTORY_DEPTH`: the components of a path at most. -/
def maxClipboardDirectoryDepth : Nat := 32

/-- `MAX_SINGLE_FILE_BYTES`: 16 GiB. -/
def maxSingleFileBytes : Nat := 16 * 1024 * 1024 * 1024

/-- `MAX_TOTAL_TRANSFER_BYTES`: 64 GiB. -/
def maxTotalTransferBytes : Nat := 64 * 1024 * 1024 * 1024

/-- `MAX_WIRE_PATH_UTF16_UNITS`: the units of a path on the wire at most. -/
def maxWirePathUtf16Units : Nat := 259

/-! ### Checks -/

/-- What path checking takes from the standard library and from the clipboard crate. -/
structure NameRules where
  /-- `str::to_lowercase`. -/
  toLowercase : String → String
  /-- `is_windows_device_name`. -/
  isWindowsDeviceName : String → Bool
  /-- No character but the backslash has a backslash in its lowercase form. -/
  toLowercase_backslash : ∀ s, '\\' ∉ s.toList → '\\' ∉ (toLowercase s).toList

/-- `WINDOWS_INVALID_CHARACTERS`: no name on Windows has them. -/
def windowsInvalidCharacters : List Char := ['<', '>', ':', '"', '/', '\\', '|', '?', '*']

/-- `char::is_control`: the general category Cc. -/
def isControl (c : Char) : Bool := c.toNat < 0x20 || (0x7f ≤ c.toNat && c.toNat < 0xa0)

/-- The number of units of a character in UTF-16. -/
def utf16Units (c : Char) : Nat := if c.toNat < 0x10000 then 1 else 2

/-- `components.join("\\")`: the path as it is sent. -/
def joinWire (components : List String) : String :=
  String.ofList (['\\'].intercalate (components.map String.toList))

/-- `validate_component`: a name that is no way up, and that Windows can have. -/
def validateComponent (rules : NameRules) (component : String) : Except String Unit := do
  ensure (component ≠ "" ∧ component ≠ "." ∧ component ≠ "..")
    "clipboard path contains an invalid component"
  ensure (component.toList.getLast? ≠ some ' ' ∧ component.toList.getLast? ≠ some '.')
    "clipboard path has an unsafe trailing character"
  ensure (component.toList.any isControl = false)
    "clipboard path contains a control character"
  ensure (component.toList.any (windowsInvalidCharacters.contains ·) = false)
    "clipboard path contains a Windows-invalid character"
  ensure (rules.isWindowsDeviceName component = false)
    "clipboard path uses a reserved Windows device name"

/-- `validate_components`: at least one component, not too many, and each of them valid. -/
def validateComponents (rules : NameRules) (components : List String) : Except String Unit := do
  ensure (components ≠ []) "clipboard path is empty"
  ensure (components.length ≤ maxClipboardDirectoryDepth)
    "clipboard path exceeds the directory depth limit"
  components.forM (validateComponent rules)

/-- The check of `validate_wire_length`, over the units of UTF-16. -/
def WireLengthOk (components : List String) : Prop :=
  ((joinWire components).toList.map utf16Units).sum ≤ maxWirePathUtf16Units

instance (components : List String) : Decidable (WireLengthOk components) :=
  inferInstanceAs (Decidable (_ ≤ _))

/-! ### Relative paths -/

/-- `RelativeClipboardPath`: the components go with the checks they have passed. -/
@[ext] structure RelativeClipboardPath (rules : NameRules) where
  components : List String
  valid : validateComponents rules components = .ok ()
  wireLength : WireLengthOk components

instance (rules : NameRules) : DecidableEq (RelativeClipboardPath rules) := fun a b =>
  decidable_of_iff (a.components = b.components) RelativeClipboardPath.ext_iff.symm

namespace RelativeClipboardPath

variable {rules : NameRules}

/-- `RelativeClipboardPath::from_local_components`: the checks, and then the path. -/
def fromLocalComponents (rules : NameRules) (components : List String) :
    Except String (RelativeClipboardPath rules) :=
  match hvalid : validateComponents rules components with
  | .error e => .error e
  | .ok () =>
    if hwire : WireLengthOk components then .ok ⟨components, hvalid, hwire⟩
    else .error "clipboard path exceeds the RDP wire limit"

/-- `split_wire_parent`: the components between backslashes, each valid by itself. -/
def splitWireParent (rules : NameRules) (parent : String) : Except String (List String) := do
  ensure (parent ≠ "") "clipboard parent path is empty"
  ensure ('/' ∉ parent.toList) "clipboard parent path contains an invalid separator"
  let components := (parent.toList.splitOn '\\').map String.ofList
  components.forM (validateComponent rules)
  return components

/-- `RelativeClipboardPath::from_wire`: the name behind its parent, under the same checks as a local
path. -/
def fromWire (rules : NameRules) (name : String) (parent : Option String) :
    Except String (RelativeClipboardPath rules) := do
  let components ← match parent with
    | some parent => splitWireParent rules parent
    | none => .ok []
  validateComponent rules name
  fromLocalComponents rules (components ++ [name])

/-- `RelativeClipboardPath::name`: the last component. -/
def name (path : RelativeClipboardPath rules) : String := path.components.getLast?.getD ""

/-- `RelativeClipboardPath::parent_wire_path`: the other components as they are sent, if there are any. -/
def parentWirePath (path : RelativeClipboardPath rules) : Option String :=
  let parent := path.components.dropLast
  if parent = [] then none else some (joinWire parent)

/-- `RelativeClipboardPath::as_path_buf`: a relative path is the list of its components. -/
def asPathBuf (path : RelativeClipboardPath rules) : List String := path.components

/-- `RelativeClipboardPath::normalized_key`: two paths with one key are the same on Windows. -/
def normalizedKey (path : RelativeClipboardPath rules) : String :=
  joinWire (path.components.map rules.toLowercase)

/-- `RelativeClipboardPath::parent_key`: the key of the directory around it, if there is one. -/
def parentKey (path : RelativeClipboardPath rules) : Option String :=
  let parent := path.components.dropLast
  if parent = [] then none else some (joinWire (parent.map rules.toLowercase))

/-- `RelativeClipboardPath::top_level_key`: the key of the first component. -/
def topLevelKey (path : RelativeClipboardPath rules) : String :=
  (path.components.head?.map rules.toLowercase).getD ""

/-- `RelativeClipboardPath::top_level_name`: the first component as it is written. -/
def topLevelName (path : RelativeClipboardPath rules) : String := path.components.head?.getD ""

/-- `RelativeClipboardPath::child`: one component more, checked like any path. -/
def child (path : RelativeClipboardPath rules) (name : String) :
    Except String (RelativeClipboardPath rules) :=
  fromLocalComponents rules (path.components ++ [name])

end RelativeClipboardPath

/-! ### Components and the wire -/

section

variable {rules : NameRules}

/-- A component that passed its checks can be joined and split again. -/
theorem validateComponent_facts {component : String}
    (h : validateComponent rules component = .ok ()) :
    component ≠ "" ∧ '\\' ∉ component.toList ∧ '/' ∉ component.toList := by
  simp only [validateComponent, bind_eq_ok, ensure_eq_ok] at h
  obtain ⟨-, hname, -, -, -, -, -, hinvalid, -⟩ := h
  have hvalid := List.any_eq_false.mp hinvalid
  exact ⟨hname.1, fun hmem => hvalid _ hmem (by decide), fun hmem => hvalid _ hmem (by decide)⟩

theorem validateComponents_eq_ok {components : List String} :
    validateComponents rules components = .ok () ↔
      components ≠ [] ∧ components.length ≤ maxClipboardDirectoryDepth ∧
        ∀ c ∈ components, validateComponent rules c = .ok () := by
  simp only [validateComponents, bind_eq_ok, ensure_eq_ok, forM_eq_ok]
  constructor
  · rintro ⟨-, hne, -, hdepth, hall⟩
    exact ⟨hne, hdepth, hall⟩
  · rintro ⟨hne, hdepth, hall⟩
    exact ⟨(), hne, (), hdepth, hall⟩

/-- Splitting undoes joining, as no component has a backslash. -/
theorem splitOn_joinWire {components : List String} (hne : components ≠ [])
    (h : ∀ c ∈ components, '\\' ∉ c.toList) :
    ((joinWire components).toList.splitOn '\\').map String.ofList = components := by
  rw [joinWire, String.toList_ofList, List.splitOn_intercalate]
  · simp
  · intro l hl
    obtain ⟨c, hc, rfl⟩ := List.mem_map.mp hl
    exact h c hc
  · simpa using hne

theorem joinWire_injective {xs ys : List String} (hxs : xs ≠ []) (hys : ys ≠ [])
    (hx : ∀ c ∈ xs, '\\' ∉ c.toList) (hy : ∀ c ∈ ys, '\\' ∉ c.toList)
    (h : joinWire xs = joinWire ys) : xs = ys := by
  rw [← splitOn_joinWire hxs hx, ← splitOn_joinWire hys hy, h]

theorem mem_intercalate {c : Char} {xs : List (List Char)}
    (h : c ∈ ['\\'].intercalate xs) : c = '\\' ∨ ∃ x ∈ xs, c ∈ x := by
  induction xs with
  | nil => simp [List.intercalate] at h
  | cons x xs ih =>
    -- the character is in the first part, is the separator, or is further on
    cases xs with
    | nil => exact .inr ⟨x, by simp, by simpa [List.intercalate] using h⟩
    | cons y ys =>
      have heq : ['\\'].intercalate (x :: y :: ys) = x ++ '\\' :: ['\\'].intercalate (y :: ys) := by
        simp [List.intercalate]
      rw [heq] at h
      rcases List.mem_append.mp h with h | h
      · exact .inr ⟨x, by simp, h⟩
      · rcases List.mem_cons.mp h with rfl | h
        · exact .inl rfl
        · rcases ih h with rfl | ⟨z, hz, hc⟩
          · exact .inl rfl
          · exact .inr ⟨z, List.mem_cons_of_mem _ hz, hc⟩

theorem joinWire_ne_empty {components : List String} (hne : components ≠ [])
    (h : ∀ c ∈ components, c ≠ "") : joinWire components ≠ "" := by
  cases components with
  | nil => exact absurd rfl hne
  | cons c cs =>
    intro heq
    have hlist := congrArg String.toList heq
    rw [joinWire, String.toList_ofList] at hlist
    have hc : c.toList ≠ [] := fun hnil => h c (by simp) (String.toList_injective hnil)
    cases cs with
    | nil => exact hc (by simpa [List.intercalate] using hlist)
    | cons d ds => simp [List.intercalate] at hlist

end

namespace RelativeClipboardPath

variable {rules : NameRules} (path : RelativeClipboardPath rules)

theorem components_ne_nil : path.components ≠ [] := (validateComponents_eq_ok.mp path.valid).1

theorem component_ok {c : String} (hc : c ∈ path.components) :
    validateComponent rules c = .ok () :=
  (validateComponents_eq_ok.mp path.valid).2.2 c hc

theorem components_eq : path.components = path.components.dropLast ++ [path.name] := by
  have hlast := List.dropLast_concat_getLast path.components_ne_nil
  rw [name, List.getLast?_eq_some_getLast path.components_ne_nil]
  exact hlast.symm

theorem fromLocalComponents_eq (components : List String) (hvalid : _) (hwire : _) :
    fromLocalComponents rules components = .ok ⟨components, hvalid, hwire⟩ := by
  unfold fromLocalComponents
  split
  · next e he => rw [hvalid] at he; nomatch he
  · rw [dif_pos hwire]

/-- The path built from components has these components. -/
theorem components_of_fromLocalComponents {components : List String}
    {path : RelativeClipboardPath rules}
    (h : fromLocalComponents rules components = .ok path) : path.components = components := by
  unfold fromLocalComponents at h
  split at h
  · nomatch h
  · split at h
    · rw [← Except.ok.inj h]
    · nomatch h

/-- **Round trip through the wire.** The name and the parent a path advertises rebuild it. -/
theorem fromWire_name_parentWirePath :
    fromWire rules path.name path.parentWirePath = .ok path := by
  have hname : validateComponent rules path.name = .ok () :=
    path.component_ok (by rw [path.components_eq]; simp)
  have hparent : ∀ c ∈ path.components.dropLast, validateComponent rules c = .ok () :=
    fun c hc => path.component_ok (List.dropLast_subset _ hc)
  have hpath : fromLocalComponents rules (path.components.dropLast ++ [path.name]) = .ok path := by
    rw [← path.components_eq]
    exact fromLocalComponents_eq path.components path.valid path.wireLength
  unfold fromWire parentWirePath
  simp only
  -- a top-level entry has no parent on the wire
  by_cases hnil : path.components.dropLast = []
  · rw [if_pos hnil]
    rw [hnil] at hpath
    refine bind_eq_ok.mpr ⟨[], rfl, bind_eq_ok.mpr ⟨(), hname, hpath⟩⟩
  · rw [if_neg hnil]
    -- no component contains a separator, so splitting finds them all again
    have hsplit : splitWireParent rules (joinWire path.components.dropLast)
        = .ok path.components.dropLast := by
      have hback := splitOn_joinWire hnil fun c hc => (validateComponent_facts (hparent c hc)).2.1
      simp only [splitWireParent, hback]
      refine bind_eq_ok.mpr ⟨(), ?_, bind_eq_ok.mpr ⟨(), ?_, bind_eq_ok.mpr ⟨(), ?_, rfl⟩⟩⟩
      · exact ensure_eq_ok.mpr
          (joinWire_ne_empty hnil fun c hc => (validateComponent_facts (hparent c hc)).1)
      · refine ensure_eq_ok.mpr fun hmem => ?_
        rw [joinWire, String.toList_ofList] at hmem
        rcases mem_intercalate hmem with heq | ⟨x, hx, hc⟩
        · exact absurd heq (by decide)
        · obtain ⟨c, hmem', rfl⟩ := List.mem_map.mp hx
          exact (validateComponent_facts (hparent c hmem')).2.2 hc
      · exact forM_eq_ok.mpr hparent
    exact bind_eq_ok.mpr ⟨_, hsplit, bind_eq_ok.mpr ⟨(), hname, hpath⟩⟩

/-- The components of a path, without case. -/
def foldedComponents : List String := path.components.map rules.toLowercase

theorem foldedComponents_backslash {c : String} (hc : c ∈ path.foldedComponents) :
    '\\' ∉ c.toList := by
  obtain ⟨d, hd, rfl⟩ := List.mem_map.mp hc
  exact rules.toLowercase_backslash d (validateComponent_facts (path.component_ok hd)).2.1

/-- Two paths have the same key when their components are the same but for case. -/
theorem normalizedKey_eq_iff (a b : RelativeClipboardPath rules) :
    a.normalizedKey = b.normalizedKey ↔ a.foldedComponents = b.foldedComponents := by
  constructor
  · -- lowercasing introduces no separator, so the key determines the components
    refine joinWire_injective ?_ ?_ (fun c => a.foldedComponents_backslash)
      fun c => b.foldedComponents_backslash
    · simpa using a.components_ne_nil
    · simpa using b.components_ne_nil
  · intro h
    exact congrArg joinWire h

/-- The parent key of a path is the key of any path with the components of its parent. -/
theorem parentKey_eq {parent : RelativeClipboardPath rules}
    (h : parent.components = path.components.dropLast) :
    path.parentKey = some parent.normalizedKey := by
  have hne : path.components.dropLast ≠ [] := h ▸ parent.components_ne_nil
  simp only [parentKey, if_neg hne, normalizedKey, h]

theorem parentKey_eq_none (h : path.components.dropLast = []) : path.parentKey = none := by
  simp [parentKey, h]

end RelativeClipboardPath

end Clipboard
end Rdp
end Navop
