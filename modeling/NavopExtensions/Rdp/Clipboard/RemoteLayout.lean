import NavopExtensions.Rdp.Clipboard.Path

/-!
# The layout of a remote file list

`RemoteClipboardLayout::validate` (`rdp-helper/src/clipboard/remote_layout.rs`): the file list a
peer advertises, checked entry by entry and sorted into directories and files. Hash maps and hash
sets are association lists and lists; `u64` amounts are natural numbers whose additions are checked.
-/

namespace Navop
namespace Rdp
namespace Clipboard

open Checks

/-- `FileDescriptor`: what the server says of a file before it is fetched. -/
structure FileDescriptor where
  name : String
  relativePath : Option String
  attributes : Option UInt32
  fileSize : Option Nat
  deriving DecidableEq, Repr

/-- `ClipboardFileAttributes::DIRECTORY`: the bit of directories. -/
def directoryAttribute : UInt32 := 0x10

/-- `ClipboardFileAttributes::ARCHIVE`: the bit of files. -/
def archiveAttribute : UInt32 := 0x20

/-- `FILE_ATTRIBUTE_REPARSE_POINT`: the bit of links. -/
def fileAttributeReparsePoint : UInt32 := 0x400

/-- `RemoteFile`: a file to fetch, and where it goes. -/
structure RemoteFile where
  descriptorIndex : Int
  relativePath : List String
  advertisedSize : Option Nat
  deriving DecidableEq, Repr

/-- `RemoteClipboardLayout`: the directories, the files, and the names at the top. -/
structure RemoteClipboardLayout where
  directories : List (List String)
  files : List RemoteFile
  topLevelNames : List String
  deriving DecidableEq, Repr

/-- `u64::checked_add`, with the context of its failure. -/
def checkedAddU64 (a b : Nat) (message : String) : Except String Nat :=
  if a + b < 2 ^ 64 then .ok (a + b) else .error message

/-- `i32::try_from` of an index: the wire has 31 bits for it. -/
def i32TryFrom (index : Nat) : Except String Int :=
  if index < 2 ^ 31 then .ok index
  else .error "out of range integral type conversion attempted"

/-- The variables of the loop of `validate_descriptors`. -/
structure Validation where
  hierarchy : List (String × Bool)
  topLevels : List String
  advertisedTotal : Nat
  layout : RemoteClipboardLayout

/-- The variables before the loop. -/
def Validation.initial : Validation := ⟨[], [], 0, ⟨[], [], []⟩⟩

section

variable (rules : NameRules)

/-- `descriptor_path`: the name and the parent that the descriptor gives. -/
def descriptorPath (descriptor : FileDescriptor) : Except String (RelativeClipboardPath rules) :=
  RelativeClipboardPath.fromWire rules descriptor.name descriptor.relativePath

/-- `is_directory`: the bit, and links are refused. -/
def isDirectory (descriptor : FileDescriptor) : Except String Bool := do
  let attributes := descriptor.attributes.getD 0
  ensure (attributes &&& fileAttributeReparsePoint = 0) "remote clipboard contains a reparse point"
  return attributes &&& directoryAttribute = directoryAttribute

variable {rules}

/-- `validate_parent`: the parent has come before, and is a directory. -/
def validateParent (path : RelativeClipboardPath rules) (hierarchy : List (String × Bool)) :
    Except String Unit :=
  match path.parentKey with
  | none => .ok ()
  | some parent =>
    ensure (hierarchy.lookup parent = some true)
      "remote clipboard hierarchy has a missing parent directory"

/-- `account_advertised_size`: the new total, within the bounds for one file and for all of them. -/
def accountAdvertisedSize (size : Option Nat) (total : Nat) : Except String Nat :=
  match size with
  | none => .ok total
  | some size => do
    ensure (size ≤ maxSingleFileBytes) "remote clipboard file exceeds the single-file limit"
    let total ← checkedAddU64 total size "remote clipboard transfer size overflow"
    ensure (total ≤ maxTotalTransferBytes)
      "remote clipboard transfer exceeds the total size limit"
    return total

/-- `add_to_layout`: the new layout and the new advertised total. -/
def addToLayout (layout : RemoteClipboardLayout) (descriptor : FileDescriptor)
    (path : RelativeClipboardPath rules) (descriptorIndex : Int) (directory : Bool)
    (advertisedTotal : Nat) : Except String (RemoteClipboardLayout × Nat) :=
  if directory then
    .ok ({ layout with directories := layout.directories ++ [path.asPathBuf] }, advertisedTotal)
  else do
    let advertisedTotal ← accountAdvertisedSize descriptor.fileSize advertisedTotal
    let file := ⟨descriptorIndex, path.asPathBuf, descriptor.fileSize⟩
    return ({ layout with files := layout.files ++ [file] }, advertisedTotal)

variable (rules)

/-- The body of the loop of `validate_descriptors`. -/
def validateDescriptor (v : Validation) (index : Nat) (descriptor : FileDescriptor) :
    Except String Validation := do
  let path ← descriptorPath rules descriptor
  let directory ← isDirectory descriptor
  -- a parent has to come before its children, and the same path may not come twice
  validateParent path v.hierarchy
  ensure (v.hierarchy.lookup path.normalizedKey = none) "remote clipboard contains duplicate paths"
  let hierarchy := (path.normalizedKey, directory) :: v.hierarchy
  -- a top-level name is listed once, as it was first spelled
  let topLevelNames := if path.topLevelKey ∈ v.topLevels then v.layout.topLevelNames
    else v.layout.topLevelNames ++ [path.topLevelName]
  let topLevels := path.topLevelKey :: v.topLevels
  let descriptorIndex ← i32TryFrom index
  let added ← addToLayout { v.layout with topLevelNames } descriptor path descriptorIndex directory
    v.advertisedTotal
  return ⟨hierarchy, topLevels, added.2, added.1⟩

/-- The loop of `validate_descriptors`, from the descriptor at `index` on. -/
def validateDescriptors (v : Validation) (index : Nat) :
    List FileDescriptor → Except String Validation
  | [] => .ok v
  | descriptor :: rest => do
    let v ← validateDescriptor rules v index descriptor
    validateDescriptors v (index + 1) rest

/-- `RemoteClipboardLayout::validate`: the descriptors one after another. -/
def RemoteClipboardLayout.validate (descriptors : List FileDescriptor) :
    Except String RemoteClipboardLayout := do
  ensure (descriptors ≠ []) "remote clipboard file list is empty"
  ensure (descriptors.length ≤ maxClipboardEntryCount)
    "remote clipboard entry count exceeds the limit"
  let v ← validateDescriptors rules .initial 0 descriptors
  return v.layout

end

end Clipboard
end Rdp
end Navop
