import NavopExtensions.Rdp.Clipboard.Local

/-!
# What a local file list contains

The walk of `collect_tree` keeps a stack of nodes still to be visited. `Walk` is its invariant, over
all nodes, visited and stacked: they are reached from the top-level paths, a directory that was
visited has all its children among them, and the parent of a node has been visited before it.

`Walk.distinct` is the part that needs an assumption about the file system: if no directory that is
reached has two children whose names are the same but for case, no two nodes have the same
case-folded path. A new child could only collide with a child of another directory of the same
case-folded path, and its own directory is the only node with that path. At the end of the walk the
assumption is also necessary (`Walk.nodup_iff`).
-/

namespace Navop
namespace Rdp
namespace Clipboard

open Checks

variable {P N : Type} {rules : NameRules} {fs : SourceFs P N}

/-! ### The forest -/

/-- What `build_entry` takes for a directory. -/
def IsDirectory (fs : SourceFs P N) (path : P) : Prop :=
  ∃ metadata, fs.symlinkMetadata path = .ok metadata ∧ metadata.isFile = false ∧
    metadata.isDir = true

/-- The name of a top-level path. -/
def topName (fs : SourceFs P N) (path : P) : Option String := (fs.fileName path).bind fs.toStr

/-- The children of a directory with the given components, each with its own components. -/
def childNodes (fs : SourceFs P N) (components : List String) (children : List (DirEntry P N)) :
    List (P × List String) :=
  children.filterMap fun child =>
    (fs.toStr child.fileName).map fun name => (child.path, components ++ [name])

/-- The paths below the top-level paths, with their components relative to the list. -/
inductive Reaches (fs : SourceFs P N) (tops : List P) : P → List String → Prop
  | top {path name} (hpath : path ∈ tops) (hname : topName fs path = some name) :
    Reaches fs tops path [name]
  | child {path components children node} (h : Reaches fs tops path components)
    (hdir : IsDirectory fs path) (hread : fs.readDir path = .ok children)
    (hnode : node ∈ childNodes fs components children) : Reaches fs tops node.1 node.2

/-- No directory below the top-level paths has two children whose names are equal after
lowercasing. -/
def CaseFoldDistinct (rules : NameRules) (fs : SourceFs P N) (tops : List P) : Prop :=
  ∀ path components children, Reaches fs tops path components → IsDirectory fs path →
    fs.readDir path = .ok children →
    (children.filterMap fun child => (fs.toStr child.fileName).map rules.toLowercase).Nodup

theorem Reaches.mono {tops more : List P} {path : P} {components : List String}
    (h : Reaches fs tops path components) (hsub : ∀ p ∈ tops, p ∈ more) :
    Reaches fs more path components := by
  induction h with
  | top hpath hname => exact .top (hsub _ hpath) hname
  | child _ hdir hread hnode ih => exact .child ih hdir hread hnode

theorem CaseFoldDistinct.anti {tops more : List P} (h : CaseFoldDistinct rules fs more)
    (hsub : ∀ p ∈ tops, p ∈ more) : CaseFoldDistinct rules fs tops :=
  fun path components children hreach => h path components children (hreach.mono hsub)

theorem mem_childNodes {components : List String} {children : List (DirEntry P N)}
    {node : P × List String} (h : node ∈ childNodes fs components children) :
    ∃ child ∈ children, ∃ name, fs.toStr child.fileName = some name ∧
      node = (child.path, components ++ [name]) := by
  obtain ⟨child, hchild, hnode⟩ := List.mem_filterMap.mp h
  obtain ⟨name, hname, rfl⟩ := Option.map_eq_some_iff.mp hnode
  exact ⟨child, hchild, name, hname, rfl⟩

theorem Reaches.components_ne_nil {tops : List P} {path : P} {components : List String}
    (h : Reaches fs tops path components) : components ≠ [] := by
  induction h with
  | top => simp
  | child _ _ _ hnode =>
    obtain ⟨child, -, name, -, rfl⟩ := mem_childNodes hnode
    simp

/-- A path with a single component is a top-level path. -/
theorem Reaches.top_of_singleton {tops : List P} {path : P} {components : List String}
    (h : Reaches fs tops path components) {name : String} (hone : components = [name]) :
    ∃ top ∈ tops, topName fs top = some name := by
  cases h with
  | top hpath hname =>
    obtain rfl := (List.cons.inj hone).1
    exact ⟨path, hpath, hname⟩
  | child hparent _ _ hnode =>
    obtain ⟨child, -, name', -, rfl⟩ := mem_childNodes hnode
    have hlen := congrArg List.length hone
    have hpos := List.length_pos_of_ne_nil hparent.components_ne_nil
    simp only [List.length_append, List.length_singleton] at hlen
    omega

/-! ### The calls of the walk -/

/-- A stacked node, with its components. -/
def pendingNode (x : P × RelativeClipboardPath rules) : P × List String := (x.1, x.2.components)

theorem pushChild_ok {root : P} {relative : RelativeClipboardPath rules}
    {pending pending' : List (P × RelativeClipboardPath rules)} {child : DirEntry P N}
    (h : pushChild fs root relative pending child = .ok pending') :
    ∃ name node, fs.toStr child.fileName = some name ∧ pending' = node :: pending ∧
      pendingNode node = (child.path, relative.components ++ [name]) := by
  obtain ⟨_, -, h⟩ := bind_eq_ok.mp h
  obtain ⟨name, hname, h⟩ := bind_eq_ok.mp h
  obtain ⟨childRelative, hrelative, h⟩ := bind_eq_ok.mp h
  obtain ⟨_, -, h⟩ := bind_eq_ok.mp h
  obtain ⟨_, -, h⟩ := bind_eq_ok.mp h
  have hcomponents := RelativeClipboardPath.components_of_fromLocalComponents hrelative
  refine ⟨name, (child.path, childRelative), ?_, (Except.ok.inj h).symm, ?_⟩
  · unfold childName at hname
    split at hname
    · next name' hstr => rw [hstr, Except.ok.inj hname]
    · nomatch hname
  · rw [pendingNode, hcomponents]

/-- The children are pushed in reverse, so the stack holds them in order. -/
theorem foldlM_pushChild_ok {root : P} {relative : RelativeClipboardPath rules}
    {sorted : List (DirEntry P N)} {pending pending' : List (P × RelativeClipboardPath rules)}
    (h : sorted.reverse.foldlM (pushChild fs root relative) pending = .ok pending') :
    ∃ nodes, pending' = nodes ++ pending ∧
      nodes.map pendingNode = childNodes fs relative.components sorted := by
  induction sorted generalizing pending' with
  | nil => exact ⟨[], (Except.ok.inj h).symm, rfl⟩
  | cons child sorted ih =>
    rw [List.reverse_cons, List.foldlM_append] at h
    -- the child that is first in order is pushed last
    obtain ⟨between, hbetween, hpush⟩ := bind_eq_ok.mp h
    obtain ⟨nodes, rfl, hnodes⟩ := ih hbetween
    have hpush : pushChild fs root relative (nodes ++ pending) child = .ok pending' := by
      simpa using hpush
    obtain ⟨name, node, hname, rfl, hnode⟩ := pushChild_ok hpush
    refine ⟨node :: nodes, rfl, ?_⟩
    rw [List.map_cons, hnodes, hnode]
    simp [childNodes, hname]

theorem pushChildren_ok {root directory : P} {relative : RelativeClipboardPath rules}
    {pending pending' : List (P × RelativeClipboardPath rules)}
    (h : pushChildren fs root directory relative pending = .ok pending') :
    ∃ children nodes, fs.readDir directory = .ok children ∧ pending' = nodes ++ pending ∧
      (nodes.map pendingNode).Perm (childNodes fs relative.components children) := by
  obtain ⟨children, hread, h⟩ := bind_eq_ok.mp h
  obtain ⟨nodes, hpending, hnodes⟩ := foldlM_pushChild_ok h
  refine ⟨children, nodes, hread, hpending, ?_⟩
  rw [hnodes]
  exact (List.perm_insertionSort _ children).filterMap _

theorem buildEntry_ok {path : P} {relative : RelativeClipboardPath rules}
    {entry : LocalClipboardEntry P rules} (h : buildEntry fs path relative = .ok entry) :
    entry.sourcePath = path ∧ entry.relativePath = relative ∧
      (entry.kind = .directory ↔ IsDirectory fs path) := by
  obtain ⟨metadata, hmetadata, h⟩ := bind_eq_ok.mp h
  obtain ⟨kind, hkind, h⟩ := bind_eq_ok.mp h
  obtain ⟨canonical, -, h⟩ := bind_eq_ok.mp h
  obtain rfl := Except.ok.inj h
  refine ⟨rfl, rfl, ?_⟩
  obtain ⟨found, hok, hrest⟩ := bind_eq_ok.mp hmetadata
  obtain ⟨_, -, hpure⟩ := bind_eq_ok.mp hrest
  have heq : found = metadata := Except.ok.inj hpure
  rw [heq] at hok
  -- the kind is read off the metadata of the path itself, whatever it links to
  have hsymlink : fs.symlinkMetadata path = .ok metadata := context_eq_ok.mp hok
  unfold entryKind at hkind
  constructor
  · intro hdir
    change kind = .directory at hdir
    subst hdir
    refine ⟨metadata, hsymlink, ?_⟩
    split at hkind
    · nomatch hkind
    · next hfile =>
      split at hkind
      · next hd => exact ⟨by simpa using hfile, hd⟩
      · nomatch hkind
  · rintro ⟨other, hother, hfile, hd⟩
    rw [hsymlink] at hother
    obtain rfl := Except.ok.inj hother
    rw [if_neg (by simp [hfile]), if_pos hd] at hkind
    exact (Except.ok.inj hkind).symm

/-! ### The invariant of the walk -/

/-- An entry, as a node. -/
def LocalClipboardEntry.node (entry : LocalClipboardEntry P rules) : P × List String :=
  (entry.sourcePath, entry.relativePath.components)

/-- The nodes that were visited or are stacked. -/
def allNodes (entries : List (LocalClipboardEntry P rules))
    (pending : List (P × RelativeClipboardPath rules)) : List (P × List String) :=
  entries.map LocalClipboardEntry.node ++ pending.map pendingNode

/-- The case-folded components of a node. -/
def foldedKey (rules : NameRules) (node : P × List String) : List String :=
  node.2.map rules.toLowercase

/-- The parent of a path is a directory among the entries, unless the path is a top-level one. -/
def HasParent (entries : List (LocalClipboardEntry P rules)) (components : List String) : Prop :=
  components.dropLast = [] ∨
    ∃ d ∈ entries, d.kind = .directory ∧ d.relativePath.components = components.dropLast

theorem HasParent.append {entries : List (LocalClipboardEntry P rules)} {components : List String}
    (h : HasParent entries components) (more : List (LocalClipboardEntry P rules)) :
    HasParent (entries ++ more) components := by
  rcases h with h | ⟨d, hd, hrest⟩
  · exact .inl h
  · exact .inr ⟨d, List.mem_append_left _ hd, hrest⟩

/-- Parents come before their children. -/
def ParentsPrecede (entries : List (LocalClipboardEntry P rules)) : Prop :=
  ∀ pre e post, entries = pre ++ e :: post → HasParent pre e.relativePath.components

theorem ParentsPrecede.concat {entries : List (LocalClipboardEntry P rules)}
    {entry : LocalClipboardEntry P rules} (h : ParentsPrecede entries)
    (hentry : HasParent entries entry.relativePath.components) :
    ParentsPrecede (entries ++ [entry]) := by
  intro pre e post heq
  rcases List.append_eq_append_iff.mp heq with ⟨front, hpre, hlast⟩ | ⟨rest, hentries, hrest⟩
  · -- the entry is the new one
    rcases front with _ | ⟨f, front⟩
    · obtain ⟨rfl, -⟩ := List.cons.inj hlast
      rw [hpre, List.append_nil]
      exact hentry
    · simp at hlast
  · rcases rest with _ | ⟨f, rest⟩
    · obtain ⟨rfl, -⟩ := List.cons.inj hrest
      rw [List.append_nil] at hentries
      exact hentries ▸ hentry
    · obtain ⟨rfl, -⟩ := List.cons.inj hrest
      exact h pre e rest hentries

/-- The state of the walk, with the top-level paths whose walk has begun. -/
structure Walk (fs : SourceFs P N) (tops : List P) (entries : List (LocalClipboardEntry P rules))
    (pending : List (P × RelativeClipboardPath rules)) : Prop where
  built : ∀ e ∈ entries, buildEntry fs e.sourcePath e.relativePath = .ok e
  started : ∀ path ∈ tops, ∀ name, topName fs path = some name →
    (path, [name]) ∈ allNodes entries pending
  reaches : ∀ n ∈ allNodes entries pending, Reaches fs tops n.1 n.2
  parents : ParentsPrecede entries
  pendingParents : ∀ x ∈ pending, HasParent entries x.2.components
  /-- Every child of a visited directory is among the nodes, as often as it is listed. -/
  children : ∀ d ∈ entries, d.kind = .directory → ∃ children,
    fs.readDir d.sourcePath = .ok children ∧
      (childNodes fs d.relativePath.components children).Subperm (allNodes entries pending)
  distinct : CaseFoldDistinct rules fs tops →
    ((allNodes entries pending).map (foldedKey rules)).Nodup

variable {tops : List P} {entries : List (LocalClipboardEntry P rules)}
  {pending : List (P × RelativeClipboardPath rules)}

/-- Visiting a node only moves it. -/
theorem allNodes_visit {x : P × RelativeClipboardPath rules}
    {entry : LocalClipboardEntry P rules} (h : entry.node = pendingNode x) :
    allNodes (entries ++ [entry]) pending = allNodes entries (x :: pending) := by
  simp [allNodes, h]

theorem allNodes_push (nodes : List (P × RelativeClipboardPath rules)) :
    (allNodes entries (nodes ++ pending)).Perm
      (nodes.map pendingNode ++ allNodes entries pending) := by
  simp only [allNodes, List.map_append]
  rw [← List.append_assoc, ← List.append_assoc]
  exact List.perm_append_comm.append_right _

/-- Every node has its parent among the entries. -/
theorem Walk.hasParent (h : Walk fs tops entries pending) {n : P × List String}
    (hn : n ∈ allNodes entries pending) : HasParent entries n.2 := by
  rcases List.mem_append.mp hn with hn | hn
  · obtain ⟨e, he, rfl⟩ := List.mem_map.mp hn
    obtain ⟨pre, post, hsplit⟩ := List.append_of_mem he
    have hpre := (h.parents pre e post hsplit).append (e :: post)
    rw [← hsplit] at hpre
    exact hpre
  · obtain ⟨x, hx, rfl⟩ := List.mem_map.mp hn
    exact h.pendingParents x hx

/-- The case-folded path of a child of the node on top of the stack is new. -/
theorem Walk.key_fresh {x : P × RelativeClipboardPath rules}
    (h : Walk fs tops entries (x :: pending))
    (hdistinct : ((allNodes entries (x :: pending)).map (foldedKey rules)).Nodup)
    {n : P × List String} (hn : n ∈ allNodes entries (x :: pending)) (k : String) :
    foldedKey rules n ≠ foldedKey rules (pendingNode x) ++ [k] := by
  intro heq
  have hfolded : (n.2.dropLast).map rules.toLowercase = foldedKey rules (pendingNode x) := by
    rw [List.map_dropLast]
    change (foldedKey rules n).dropLast = _
    rw [heq, List.dropLast_concat]
  rcases h.hasParent hn with htop | ⟨d, hd, -, hcomponents⟩
  · rw [htop] at hfolded
    have hx := x.2.components_ne_nil
    simp [foldedKey, pendingNode, eq_comm, hx] at hfolded
  · -- the parent of `n` was visited before, so it cannot share its path with `x`
    have hkey : foldedKey rules d.node = foldedKey rules (pendingNode x) := by
      rw [← hfolded, ← hcomponents]
      rfl
    rw [allNodes, List.map_append] at hdistinct
    have hdisjoint := (List.nodup_append.mp hdistinct).2.2 _
      (List.mem_map_of_mem (List.mem_map_of_mem hd)) (foldedKey rules (pendingNode x))
      (List.mem_map_of_mem (List.mem_map_of_mem List.mem_cons_self))
    exact hdisjoint hkey

theorem foldedKey_childNodes (components : List String) (children : List (DirEntry P N)) :
    (childNodes fs components children).map (foldedKey rules)
      = (children.filterMap fun child => (fs.toStr child.fileName).map rules.toLowercase).map
          fun k => components.map rules.toLowercase ++ [k] := by
  simp only [childNodes, List.map_filterMap]
  refine List.filterMap_congr fun child _ => ?_
  cases fs.toStr child.fileName <;> simp [foldedKey]

/-- The case-folded paths stay distinct when the children of a directory are pushed. -/
theorem Walk.distinct_push {x : P × RelativeClipboardPath rules}
    {nodes : List (P × RelativeClipboardPath rules)} {children : List (DirEntry P N)}
    (h : Walk fs tops entries (x :: pending)) (hdir : IsDirectory fs x.1)
    (hread : fs.readDir x.1 = .ok children)
    (hnodes : (nodes.map pendingNode).Perm (childNodes fs x.2.components children))
    (hfs : CaseFoldDistinct rules fs tops) :
    ((nodes.map pendingNode ++ allNodes entries (x :: pending)).map (foldedKey rules)).Nodup := by
  have hold := h.distinct hfs
  have hreach := h.reaches (pendingNode x)
    (List.mem_append_right _ (List.mem_map_of_mem List.mem_cons_self))
  rw [List.map_append]
  refine List.nodup_append.mpr ⟨?_, hold, fun a ha b hb hab => ?_⟩
  · rw [(hnodes.map (foldedKey rules)).nodup_iff, foldedKey_childNodes]
    exact List.Nodup.map (fun k k' hk => by simpa using hk) (hfs _ _ _ hreach hdir hread)
  · have ha := (hnodes.map (foldedKey rules)).mem_iff.mp ha
    rw [foldedKey_childNodes] at ha
    obtain ⟨k, -, rfl⟩ := List.mem_map.mp ha
    obtain ⟨n, hn, rfl⟩ := List.mem_map.mp hb
    exact h.key_fresh hold hn k hab.symm

/-- Visiting the node on top of the stack: its children, if it is a directory, are pushed. -/
theorem Walk.visit {x : P × RelativeClipboardPath rules} {entry : LocalClipboardEntry P rules}
    {root : P} {pending' : List (P × RelativeClipboardPath rules)}
    (h : Walk fs tops entries (x :: pending)) (hbuild : buildEntry fs x.1 x.2 = .ok entry)
    (hpush : pushIfDirectory fs root entry.kind x.1 x.2 pending = .ok pending') :
    Walk fs tops (entries ++ [entry]) pending' := by
  obtain ⟨hpath, hrelative, hkind⟩ := buildEntry_ok hbuild
  have hvisit : allNodes (entries ++ [entry]) pending = allNodes entries (x :: pending) :=
    allNodes_visit (by simp [LocalClipboardEntry.node, pendingNode, hpath, hrelative])
  have hbuilt : ∀ e ∈ entries ++ [entry], buildEntry fs e.sourcePath e.relativePath = .ok e := by
    intro e he
    rcases List.mem_append.mp he with he | he
    · exact h.built e he
    · rw [List.mem_singleton.mp he, hpath, hrelative]
      exact hbuild
  -- a node is stacked when its parent is visited, so the parent comes first
  have hparents : ParentsPrecede (entries ++ [entry]) :=
    h.parents.concat (hrelative ▸ h.pendingParents x List.mem_cons_self)
  have hpending : ∀ y ∈ pending, HasParent (entries ++ [entry]) y.2.components :=
    fun y hy => (h.pendingParents y (List.mem_cons_of_mem _ hy)).append _
  cases hentry : entry.kind with
  | file =>
    -- a file only moves from the stack to the entries
    rw [hentry] at hpush
    obtain rfl := Except.ok.inj hpush
    refine ⟨hbuilt, ?_, ?_, hparents, hpending, fun d hd hdir => ?_, ?_⟩
    · rw [hvisit]; exact h.started
    · rw [hvisit]; exact h.reaches
    · rw [hvisit]
      rcases List.mem_append.mp hd with hd | hd
      · exact h.children d hd hdir
      · rw [List.mem_singleton.mp hd, hentry] at hdir
        nomatch hdir
    · rw [hvisit]; exact h.distinct
  | directory =>
    rw [hentry] at hpush
    obtain ⟨children, nodes, hread, rfl, hnodes⟩ := pushChildren_ok hpush
    -- a directory moves likewise, and its children are stacked
    have hdir : IsDirectory fs x.1 := hkind.mp hentry
    have hperm : (allNodes (entries ++ [entry]) (nodes ++ pending)).Perm
        (nodes.map pendingNode ++ allNodes (entries ++ [entry]) pending) := allNodes_push nodes
    rw [hvisit] at hperm
    refine ⟨hbuilt, fun path hp name hname => ?_, fun n hn => ?_, hparents, fun y hy => ?_,
      fun d hd hdkind => ?_, fun hfs => ?_⟩
    · exact hperm.mem_iff.mpr (List.mem_append_right _ (h.started path hp name hname))
    · rcases List.mem_append.mp (hperm.mem_iff.mp hn) with hn | hn
      · have hreach := h.reaches (pendingNode x)
          (List.mem_append_right _ (List.mem_map_of_mem List.mem_cons_self))
        exact .child hreach hdir hread (hnodes.mem_iff.mp hn)
      · exact h.reaches n hn
    · rcases List.mem_append.mp hy with hy | hy
      · have hmem := hnodes.mem_iff.mp (List.mem_map_of_mem hy)
        obtain ⟨child, -, name, -, hnode⟩ := mem_childNodes hmem
        have hcomponents : y.2.components = x.2.components ++ [name] := congrArg Prod.snd hnode
        refine .inr ⟨entry, by simp, hentry, ?_⟩
        rw [hcomponents, List.dropLast_concat, hrelative]
      · exact hpending y hy
    · refine Exists.imp (fun children hc => ⟨hc.1, hc.2.trans hperm.symm.subperm⟩)
        (?_ : ∃ children, fs.readDir d.sourcePath = .ok children ∧
          (childNodes fs d.relativePath.components children).Subperm
            (nodes.map pendingNode ++ allNodes entries (x :: pending)))
      rcases List.mem_append.mp hd with hd | hd
      · obtain ⟨children', hread', hsub⟩ := h.children d hd hdkind
        exact ⟨children', hread', hsub.trans (List.sublist_append_right _ _).subperm⟩
      · rw [List.mem_singleton.mp hd, hpath, hrelative]
        exact ⟨children, hread, hnodes.symm.subperm.trans (List.sublist_append_left _ _).subperm⟩
    · rw [(hperm.map (foldedKey rules)).nodup_iff]
      exact h.distinct_push hdir hread hnodes hfs

/-! ### The limits -/

/-- The bytes an entry adds to a transfer. -/
def LocalClipboardEntry.fileBytes (entry : LocalClipboardEntry P rules) : Nat :=
  match entry.kind with
  | .file => entry.size
  | .directory => 0

/-- The entries are within the limits, and `totalBytes` is what they add up to. -/
structure Limited (entries : List (LocalClipboardEntry P rules)) (totalBytes : Nat) : Prop where
  count : entries.length ≤ maxClipboardEntryCount
  total : totalBytes = (entries.map LocalClipboardEntry.fileBytes).sum
  total_le : totalBytes ≤ maxTotalTransferBytes
  single : ∀ e ∈ entries, e.fileBytes ≤ maxSingleFileBytes

theorem checkedAddU64_eq_ok {a b c : Nat} {message : String} :
    checkedAddU64 a b message = .ok c ↔ a + b < 2 ^ 64 ∧ a + b = c := by
  unfold checkedAddU64
  split
  · next hfits => exact ⟨fun hok => ⟨hfits, Except.ok.inj hok⟩, fun hok => congrArg _ hok.2⟩
  · next hfits => exact ⟨nofun, fun hok => absurd hok.1 hfits⟩

theorem Limited.visit {totalBytes totalBytes' : Nat} {entry : LocalClipboardEntry P rules}
    (h : Limited entries totalBytes) (hcount : entries.length < maxClipboardEntryCount)
    (haccount : accountFile entry totalBytes = .ok totalBytes') :
    Limited (entries ++ [entry]) totalBytes' := by
  -- a directory counts nothing, a file its size, which is checked before it is added
  have hentry : totalBytes' = totalBytes + entry.fileBytes ∧
      totalBytes' ≤ maxTotalTransferBytes ∧ entry.fileBytes ≤ maxSingleFileBytes := by
    unfold accountFile at haccount
    unfold LocalClipboardEntry.fileBytes
    cases hkind : entry.kind with
    | directory =>
      rw [hkind] at haccount
      obtain rfl := Except.ok.inj haccount
      exact ⟨rfl, h.total_le, Nat.zero_le _⟩
    | file =>
      simp only [hkind, bind_eq_ok, ensure_eq_ok, checkedAddU64_eq_ok] at haccount
      obtain ⟨-, hsingle, total, ⟨-, htotal⟩, -, hle, hpure⟩ := haccount
      obtain rfl := Except.ok.inj hpure
      exact ⟨htotal.symm, hle, hsingle⟩
  refine ⟨by simpa using Nat.succ_le_of_lt hcount, ?_, hentry.2.1, fun e he => ?_⟩
  · simp [hentry.1, h.total]
  · rcases List.mem_append.mp he with he | he
    · exact h.single e he
    · rw [List.mem_singleton.mp he]
      exact hentry.2.2

/-! ### Whole lists -/

/-- The loop of `collect_tree` keeps both invariants and empties the stack. -/
theorem collectPending_ok {root : P} {totalBytes : Nat}
    {result : List (LocalClipboardEntry P rules) × Nat} (hwalk : Walk fs tops entries pending)
    (hlimited : Limited entries totalBytes)
    (h : collectPending fs root pending entries totalBytes = .ok result) :
    Walk fs tops result.1 [] ∧ Limited result.1 result.2 := by
  -- one pass visits the node on top of the stack
  induction pending, entries, totalBytes using collectPending.induct with
  | case1 entries totalBytes =>
    rw [collectPending] at h
    obtain rfl := Except.ok.inj h
    exact ⟨hwalk, hlimited⟩
  | case2 entries totalBytes path relative rest hcount ih =>
    rw [collectPending, if_pos hcount] at h
    obtain ⟨entry, hbuild, h⟩ := bind_eq_ok.mp h
    obtain ⟨totalBytes', haccount, h⟩ := bind_eq_ok.mp h
    obtain ⟨pending', hpush, h⟩ := bind_eq_ok.mp h
    exact ih entry totalBytes' pending' (hwalk.visit hbuild hpush)
      (hlimited.visit hcount haccount) h
  | case3 entries totalBytes path relative rest hcount =>
    rw [collectPending, if_neg hcount] at h
    nomatch h

/-- The walk of one more top-level path begins. -/
theorem Walk.begin {path : P} {name : String} {relative : RelativeClipboardPath rules}
    (h : Walk fs tops entries []) (hname : topName fs path = some name)
    (hrelative : relative.components = [name])
    (hfresh : ∀ top ∈ tops, ∀ other, topName fs top = some other →
      rules.toLowercase other ≠ rules.toLowercase name) :
    Walk fs (tops ++ [path]) entries [(path, relative)] := by
  have hsub : ∀ p ∈ tops, p ∈ tops ++ [path] := fun p hp => List.mem_append_left _ hp
  have hold : ∀ n, n ∈ allNodes entries [] → n ∈ allNodes entries [(path, relative)] := by
    intro n hn
    exact List.mem_append_left _ (by simpa [allNodes] using hn)
  -- the only new node is the top-level path itself
  have hsplit : ∀ n ∈ allNodes entries [(path, relative)],
      n ∈ allNodes entries [] ∨ n = (path, [name]) := by
    intro n hn
    simpa [allNodes, pendingNode, hrelative] using hn
  refine ⟨h.built, fun p hp other hother => ?_, fun n hn => ?_, h.parents, fun x hx => ?_,
    fun d hd hdir => ?_, fun hfs => ?_⟩
  · rcases List.mem_append.mp hp with hp | hp
    · exact hold _ (h.started p hp other hother)
    · rw [List.mem_singleton.mp hp] at hother ⊢
      rw [hname] at hother
      obtain rfl := Option.some.inj hother
      simp [allNodes, pendingNode, hrelative]
  · rcases hsplit n hn with hn | rfl
    · exact (h.reaches n hn).mono hsub
    · exact .top (by simp) hname
  · obtain rfl := List.mem_singleton.mp hx
    exact .inl (by simp [hrelative])
  · obtain ⟨children, hread, hchildren⟩ := h.children d hd hdir
    refine ⟨children, hread, hchildren.trans ?_⟩
    simp only [allNodes, List.map_nil, List.append_nil]
    exact (List.sublist_append_left _ _).subperm
  · have hdistinct := h.distinct (hfs.anti hsub)
    have hkeys : (allNodes entries [(path, relative)]).map (foldedKey rules)
        = (allNodes entries []).map (foldedKey rules) ++ [[rules.toLowercase name]] := by
      simp [allNodes, pendingNode, foldedKey, hrelative]
    rw [hkeys]
    refine List.nodup_append.mpr ⟨hdistinct, List.nodup_singleton _, fun a ha b hb hab => ?_⟩
    obtain ⟨n, hn, rfl⟩ := List.mem_map.mp ha
    rw [List.mem_singleton.mp hb] at hab
    -- a node whose path has one component is a top-level one, and their names differ
    obtain ⟨other, hone, hlower⟩ := List.map_eq_singleton_iff.mp hab
    obtain ⟨top, htop, htopName⟩ := (h.reaches n hn).top_of_singleton hone
    exact hfresh top htop other htopName hlower

theorem utf8FileName_ok {path : P} {name : String} (h : utf8FileName fs path = .ok name) :
    topName fs path = some name := by
  unfold utf8FileName at h
  split at h
  · next found hfound =>
    obtain rfl := Except.ok.inj h
    exact hfound
  · nomatch h

/-- Two top-level paths whose names differ by more than case. -/
def NamesDiffer (rules : NameRules) (fs : SourceFs P N) (p q : P) : Prop :=
  ∀ m n, topName fs p = some m → topName fs q = some n →
    rules.toLowercase m ≠ rules.toLowercase n

theorem validateTopLevelPathsFrom_ok {names : List String} {paths : List P}
    (h : validateTopLevelPathsFrom rules fs names paths = .ok ()) :
    paths.Pairwise (NamesDiffer rules fs) ∧ ∀ p ∈ paths, ∃ n, topName fs p = some n ∧
      rules.toLowercase n ∉ names := by
  induction paths generalizing names with
  | nil => simp
  | cons path rest ih =>
    obtain ⟨_, -, h⟩ := bind_eq_ok.mp h
    obtain ⟨name, hname, h⟩ := bind_eq_ok.mp h
    obtain ⟨_, -, h⟩ := bind_eq_ok.mp h
    obtain ⟨_, hfresh, h⟩ := bind_eq_ok.mp h
    -- the name is new, and goes to the names that the later ones are compared with
    have htop := utf8FileName_ok hname
    obtain ⟨hpairs, hrest⟩ := ih h
    refine ⟨List.pairwise_cons.mpr ⟨fun q hq m n hm hn => ?_, hpairs⟩, fun p hp => ?_⟩
    · obtain ⟨n', hn', hnot⟩ := hrest q hq
      rw [hn'] at hn
      obtain rfl := Option.some.inj hn
      rw [htop] at hm
      obtain rfl := Option.some.inj hm
      exact fun heq => hnot (heq ▸ List.mem_cons_self)
    · rcases List.mem_cons.mp hp with rfl | hp
      · exact ⟨name, htop, ensure_eq_ok.mp hfresh⟩
      · obtain ⟨n, hn, hnot⟩ := hrest p hp
        exact ⟨n, hn, fun hmem => hnot (List.mem_cons_of_mem _ hmem)⟩

theorem collectEntriesFrom_ok {totalBytes : Nat} {rest : List P}
    {result : List (LocalClipboardEntry P rules)} (hwalk : Walk fs tops entries [])
    (hlimited : Limited entries totalBytes)
    (hnames : (tops ++ rest).Pairwise (NamesDiffer rules fs))
    (h : collectEntriesFrom rules fs entries totalBytes rest = .ok result) :
    Walk fs (tops ++ rest) result [] ∧ ∃ totalBytes', Limited result totalBytes' := by
  induction rest generalizing tops entries totalBytes with
  | nil =>
    obtain rfl := Except.ok.inj h
    rw [List.append_nil]
    exact ⟨hwalk, totalBytes, hlimited⟩
  | cons path rest ih =>
    obtain ⟨name, hname, h⟩ := bind_eq_ok.mp h
    obtain ⟨relative, hrelative, h⟩ := bind_eq_ok.mp h
    obtain ⟨collected, hcollected, h⟩ := bind_eq_ok.mp h
    obtain ⟨_, -, hcollected⟩ := bind_eq_ok.mp hcollected
    obtain ⟨root, -, hcollected⟩ := bind_eq_ok.mp hcollected
    have htop := utf8FileName_ok hname
    -- the walk below this path begins with a name that no other top has
    have hbegin := hwalk.begin htop
      (RelativeClipboardPath.components_of_fromLocalComponents hrelative)
      fun top htop' other hother => (List.pairwise_append.mp hnames).2.2 top htop' path
        List.mem_cons_self other name hother htop
    obtain ⟨hwalk', hlimited'⟩ := collectPending_ok hbegin hlimited hcollected
    have hassoc : tops ++ path :: rest = (tops ++ [path]) ++ rest := by simp
    rw [hassoc] at hnames ⊢
    exact ih hwalk' hlimited' hnames h

theorem Walk.empty : Walk fs [] ([] : List (LocalClipboardEntry P rules)) [] where
  built := by simp
  started := by simp
  reaches := by simp [allNodes]
  parents := fun pre e post h => by simp at h
  pendingParents := by simp
  children := by simp
  distinct := by simp [allNodes]

/-- What `collect` promises about the entries it returns. -/
structure Collected (fs : SourceFs P N) (tops : List P)
    (transfer : LocalClipboardTransfer P rules) : Prop where
  walk : Walk fs tops transfer.entries []
  limited : ∃ totalBytes, Limited transfer.entries totalBytes
  nonempty : transfer.entries ≠ []
  descriptors : transfer.descriptors = transfer.entries.map LocalClipboardEntry.descriptor

theorem collect_ok {transferId : UInt64} {paths : List String}
    {transfer : LocalClipboardTransfer P rules}
    (h : LocalClipboardTransfer.collect rules fs transferId paths = .ok transfer) :
    Collected fs (paths.map fs.pathFrom) transfer := by
  obtain ⟨_, -, h⟩ := bind_eq_ok.mp h
  obtain ⟨_, hne, h⟩ := bind_eq_ok.mp h
  obtain ⟨_, hvalidate, h⟩ := bind_eq_ok.mp h
  obtain ⟨entries, hentries, h⟩ := bind_eq_ok.mp h
  obtain rfl := Except.ok.inj h
  obtain ⟨hnames, hsome⟩ := validateTopLevelPathsFrom_ok hvalidate
  have hstart : Limited ([] : List (LocalClipboardEntry P rules)) 0 :=
    ⟨Nat.zero_le _, rfl, Nat.zero_le _, by simp⟩
  obtain ⟨hwalk, hlimited⟩ := collectEntriesFrom_ok Walk.empty hstart hnames hentries
  refine ⟨hwalk, hlimited, fun hnil => ?_, rfl⟩
  obtain ⟨path, hpath⟩ := List.exists_mem_of_ne_nil _ (ensure_eq_ok.mp hne)
  obtain ⟨name, hname, -⟩ := hsome path hpath
  have hmem := hwalk.started path hpath name hname
  change entries = [] at hnil
  simp [allNodes, hnil] at hmem

/-- Everything that is reached was collected. -/
theorem Walk.mem_of_reaches (h : Walk fs tops entries []) {path : P} {components : List String}
    (hreach : Reaches fs tops path components) :
    (path, components) ∈ entries.map LocalClipboardEntry.node := by
  induction hreach with
  | top hpath hname => simpa [allNodes] using h.started _ hpath _ hname
  | child _ hdir hread hnode ih =>
    obtain ⟨d, hd, hdnode⟩ := List.mem_map.mp ih
    have hpath : d.sourcePath = _ := congrArg Prod.fst hdnode
    have hcomponents : d.relativePath.components = _ := congrArg Prod.snd hdnode
    have hkind := (buildEntry_ok (h.built d hd)).2.2.mpr (hpath ▸ hdir)
    -- the directory was visited, and then its children were stacked and visited too
    obtain ⟨children, hread', hsub⟩ := h.children d hd hkind
    rw [hpath, hread] at hread'
    obtain rfl := Except.ok.inj hread'
    rw [hcomponents] at hsub
    simpa [allNodes] using hsub.subset hnode

/-- **Case-folded paths of a list.** The entries collected have distinct case-folded paths exactly
when no directory that is reached lists two names equal but for case. -/
theorem Walk.nodup_iff (h : Walk fs tops entries []) :
    ((entries.map LocalClipboardEntry.node).map (foldedKey rules)).Nodup ↔
      CaseFoldDistinct rules fs tops := by
  constructor
  · intro hnodup path components children hreach hdir hread
    obtain ⟨d, hd, hdnode⟩ := List.mem_map.mp (h.mem_of_reaches hreach)
    have hpath : d.sourcePath = path := congrArg Prod.fst hdnode
    have hcomponents : d.relativePath.components = components := congrArg Prod.snd hdnode
    have hkind := (buildEntry_ok (h.built d hd)).2.2.mpr (hpath ▸ hdir)
    obtain ⟨children', hread', l, hperm, hsub⟩ := h.children d hd hkind
    rw [hpath, hread] at hread'
    obtain rfl := Except.ok.inj hread'
    -- the children are among the entries, as often as they are listed
    have hl : (l.map (foldedKey rules)).Nodup := by
      refine (hsub.map (foldedKey rules)).nodup ?_
      simpa [allNodes] using hnodup
    rw [(hperm.map (foldedKey rules)).nodup_iff, foldedKey_childNodes] at hl
    exact List.Nodup.of_map _ hl
  · intro hfs
    simpa [allNodes] using h.distinct hfs

end Clipboard
end Rdp
end Navop
