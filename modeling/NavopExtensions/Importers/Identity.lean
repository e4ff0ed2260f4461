import NavopExtensions.Importers.Openssh
import NavopExtensions.Importers.Windterm
import NavopExtensions.Importers.Xshell

/-!
# Whether the host shows every session

An identifier of a record is a slug, which keeps the words of its source only. The importers of Xshell
and OpenSSH give all their records, of which the host shows the first one of each identifier; that of
WindTerm drops the others itself. So every session is shown if and only if no two of them have sources
of the same words (`importers_keep_iff`).
-/

namespace Navop
namespace Importers

/-- Whether the importer of Xshell keeps all sessions. -/
def KeepsXshell (library : Xshell.Library) (sources : List Xshell.Session) : Prop :=
  Keeps (·.id)
    ((Xshell.sessionsOf library sources).filterMap (Xshell.parseSession library))
    (Xshell.previewRecordsFromSessions library sources)

/-- Whether the importer of WindTerm keeps all sessions. -/
def KeepsWindterm (library : Windterm.Library) (files : List (Str × List UInt8)) : Prop :=
  Keeps (·.id) (Windterm.recordsOf library files)
    (Windterm.previewRecordsFromSessionFiles library files)

/-- Whether the importer of OpenSSH keeps all hosts. -/
def KeepsOpenssh (library : Openssh.Library) (configs : List (Str × List UInt8)) : Prop :=
  Keeps (·.id) (Openssh.hostRecords library configs)
    (Openssh.previewRecordsFromConfigs library configs)

theorem keepsXshell_iff (library : Xshell.Library) (sources : List Xshell.Session) :
    KeepsXshell library sources
      ↔ ((Xshell.importablePaths library sources).map fun path =>
          words library.lowercase "session".toList (Xshell.stemOf path)).Nodup := by
  unfold KeepsXshell Keeps
  rw [← Xshell.previewRecords_eq, eq_self_iff_true, true_and, Xshell.ids_previewRecords]
  have hids := @nodup_ids_iff library.lowercase "session".toList (by decide)
    "xshell:".toList ((Xshell.importablePaths library sources).map Xshell.stemOf)
  rw [List.map_map, List.map_map] at hids
  exact hids

theorem keepsWindterm_iff (library : Windterm.Library) (files : List (Str × List UInt8))
    (huuid : ∀ session ∈ Windterm.importableSessions library files, nonEmpty session.2.uuid ≠ none) :
    KeepsWindterm library files
      ↔ ((Windterm.importableSessions library files).map fun session =>
          words library.lowercase "session".toList (Windterm.trimmed session.2.uuid)).Nodup := by
  -- nothing is dropped exactly if no id comes twice
  have hkeeps : KeepsWindterm library files
      ↔ ((Windterm.recordsOf library files).map (·.id)).Nodup := by
    unfold KeepsWindterm Keeps Windterm.previewRecordsFromSessionFiles
    constructor
    · rintro ⟨hall, hnodup⟩
      rwa [hall] at hnodup
    · intro hnodup
      have hall := (Windterm.keepFirst_eq_self_iff ∅ (Windterm.recordsOf library files)).mpr
        ⟨hnodup, fun record _ => Finset.notMem_empty _⟩
      rw [hall]
      exact ⟨rfl, hnodup⟩
  -- ids built from words are equal exactly if the words are
  have hids := @nodup_ids_iff library.lowercase "session".toList (by decide)
    "windterm:".toList
    ((Windterm.importableSessions library files).map fun session => Windterm.trimmed session.2.uuid)
  rw [hkeeps, Windterm.ids_recordsOf, Windterm.sourceIds_recordsOf huuid]
  rw [List.map_map, List.map_map] at hids
  rw [List.map_map]
  exact hids

theorem keepsOpenssh_iff (library : Openssh.Library) (configs : List (Str × List UInt8))
    (hconfigs : ∀ file ∈ configs, Openssh.isKnownHostsPath file.1 = false) :
    KeepsOpenssh library configs
      ↔ ((Openssh.aliasesOf configs).map (words library.lowercase "host".toList)).Nodup := by
  unfold KeepsOpenssh Keeps Openssh.previewRecordsFromConfigs
  rw [Openssh.previewFiles_configs hconfigs, eq_self_iff_true, true_and, Openssh.ids_hostRecords]
  exact nodup_ids_iff library.lowercase (by decide) _ _

/-- **Every session is kept** if and only if no two sessions that can be imported have sources of the
same words: paths for Xshell, UUIDs for WindTerm, and names of hosts for OpenSSH. -/
theorem importers_keep_iff (xshell : Xshell.Library) (sources : List Xshell.Session)
    (windterm : Windterm.Library) (files : List (Str × List UInt8))
    (openssh : Openssh.Library) (configs : List (Str × List UInt8)) :
    (KeepsXshell xshell sources
      ↔ ((Xshell.importablePaths xshell sources).map fun path =>
          words xshell.lowercase "session".toList (Xshell.stemOf path)).Nodup) ∧
    ((∀ session ∈ Windterm.importableSessions windterm files, nonEmpty session.2.uuid ≠ none) →
      (KeepsWindterm windterm files
        ↔ ((Windterm.importableSessions windterm files).map fun session =>
            words windterm.lowercase "session".toList (Windterm.trimmed session.2.uuid)).Nodup)) ∧
    ((∀ file ∈ configs, Openssh.isKnownHostsPath file.1 = false) →
      (KeepsOpenssh openssh configs
        ↔ ((Openssh.aliasesOf configs).map (words openssh.lowercase "host".toList)).Nodup)) :=
  ⟨keepsXshell_iff xshell sources, keepsWindterm_iff windterm files,
    keepsOpenssh_iff openssh configs⟩

/-! ### Two sessions of the same words -/

/-- Lower-casing of ASCII. -/
def asciiLowercase (c : Char) : Str := [c.toLower]

/-- A session file of Xshell. -/
def xshellFile (path : String) : Xshell.Session :=
  ⟨path.toList, "[CONNECTION]\nHost=a.example\n".toUTF8.data.toList⟩

/-- A WindTerm session. -/
def windtermSession (uuid : String) : Windterm.WindTermSession :=
  { uuid := some uuid.toList
    protocol := some "SSH".toList
    target := some "a.example".toList }

/-- The importers' libraries for these sessions. -/
def xshellLibrary : Xshell.Library := ⟨asciiLowercase, fun _ => none, fun _ => none⟩

/-- The importers' libraries for these sessions, whatever the bytes of a file. -/
def windtermLibrary (uuids : List String) : Windterm.Library :=
  ⟨asciiLowercase, fun _ => some (uuids.map windtermSession)⟩

/-- A configuration with the given `Host` line. -/
def opensshFile (hosts : String) : Str × List UInt8 :=
  ("/home/a/.ssh/config".toList, ("Host " ++ hosts ++ "\n  User a\n").toUTF8.data.toList)

theorem importers_keep_iff_two :
    KeepsWindterm (windtermLibrary ["1-2", "12"]) [("user.sessions".toList, [])] ∧
      KeepsOpenssh ⟨asciiLowercase⟩ [opensshFile "web-1 web1"] := by
  have hkeep := importers_keep_iff xshellLibrary [] (windtermLibrary ["1-2", "12"])
    [("user.sessions".toList, [])] ⟨asciiLowercase⟩ [opensshFile "web-1 web1"]
  refine ⟨(hkeep.2.1 ?_).mpr ?_, (hkeep.2.2 ?_).mpr ?_⟩
  · intro session hsession
    have hall : ((Windterm.importableSessions (windtermLibrary ["1-2", "12"])
        [("user.sessions".toList, [])]).all fun session => (nonEmpty session.2.uuid).isSome)
        = true := by decide
    exact Option.isSome_iff_ne_none.mp (List.all_eq_true.mp hall session hsession)
  · decide
  · intro file hfile
    rw [List.mem_singleton.mp hfile]
    decide
  · decide

/-- Each of the importers loses one of two sessions with different paths, UUIDs or names. -/
theorem same_words_lost :
    (∃ library sources, ((Xshell.sessionsOf library sources).map (·.path)).Nodup ∧
      ¬ KeepsXshell library sources) ∧
    (∃ library files, ((Windterm.importableSessions library files).map (·.2.uuid)).Nodup ∧
      ¬ KeepsWindterm library files) ∧
    (∃ library configs, (Openssh.aliasesOf configs).Nodup ∧ ¬ KeepsOpenssh library configs) := by
  refine ⟨⟨xshellLibrary, [xshellFile "web-1.xsh", xshellFile "web_1.xsh"], ?_, ?_⟩,
    ⟨windtermLibrary ["a-1", "a_1"], [("user.sessions".toList, [])], ?_, ?_⟩,
    ⟨⟨asciiLowercase⟩, [opensshFile "web-1 web_1"], ?_, ?_⟩⟩
  · decide
  · rintro ⟨-, hnodup⟩
    exact absurd hnodup (by decide)
  · decide
  · rintro ⟨hall, -⟩
    exact absurd hall (by decide)
  · decide
  · rintro ⟨-, hnodup⟩
    exact absurd hnodup (by decide)

end Importers
end Navop
