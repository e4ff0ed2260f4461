import NavopExtensions.Lib.Slug
import NavopExtensions.Lib.Text

/-!
# What the importers of SSH sessions share

Each importer has its own copy of `slug`, which differ in the word for texts that have no slug. Whether
a character is lowered to one or to several others is left to `char::to_lowercase`, a parameter.

The host shows one record for each identifier, the first one.
-/

namespace Navop
namespace Importers

open Text

/-- Texts are lists of characters. -/
abbrev Str := List Char

/-- `parse::<u16>`: decimal digits, with a plus in front if one likes, up to 65535. -/
def parseU16 (text : Str) : Option ℕ := parseUnsigned 10 65535 text

/-- `non_empty`: the trimmed text, if anything of it is left. -/
def nonEmpty (value : Option Str) : Option Str := (value.map trim).filter (!·.isEmpty)

/-- `SshImportAuthMethod`, as far as it is used. -/
inductive SshImportAuthMethod
  | password (password : Option Str)
  | privateKey (keyPath : Str) (passphrase : Option Str)
  | agent
  | autoPublicKey
  deriving DecidableEq

/-- `slug`: lower case, letters and digits, everything else as dashes, and the fallback for nothing. -/
def slug (lowercase : Char → Str) (fallback value : Str) : Str :=
  Slug.slug Char.isAlphanum fallback (value.flatMap lowercase)

/-- The words of a text: its longest pieces of ASCII letters and digits after lower-casing. -/
def words (lowercase : Char → Str) (fallback value : Str) : List Str :=
  Slug.wordsOr Char.isAlphanum fallback (value.flatMap lowercase)

theorem slug_eq_iff (lowercase : Char → Str) {fallback : Str} (hfallback : '-' ∉ fallback)
    (value other : Str) :
    slug lowercase fallback value = slug lowercase fallback other
      ↔ words lowercase fallback value = words lowercase fallback other :=
  Slug.slug_eq_iff (by decide) hfallback _ _

/-- The records of what can be imported are all there, and the host, which shows the first record of
each identifier, shows all of them. -/
def Keeps {ρ : Type*} (id : ρ → Str) (importable result : List ρ) : Prop :=
  result = importable ∧ (result.map id).Nodup

/-- Identifiers that are made of slugs are different if and only if the words of their sources are. -/
theorem nodup_ids_iff (lowercase : Char → Str) {fallback : Str} (hfallback : '-' ∉ fallback)
    (start : Str) (sources : List Str) :
    (sources.map fun source => start ++ slug lowercase fallback source).Nodup
      ↔ (sources.map (words lowercase fallback)).Nodup := by
  rw [List.Nodup, List.Nodup, List.pairwise_map, List.pairwise_map]
  have hiff : ∀ source other, start ++ slug lowercase fallback source
      ≠ start ++ slug lowercase fallback other
      ↔ words lowercase fallback source ≠ words lowercase fallback other := by
    intro source other
    rw [Ne, List.append_right_inj, slug_eq_iff lowercase hfallback]
  exact List.Pairwise.iff fun {source other} => hiff source other

end Importers
end Navop
