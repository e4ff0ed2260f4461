import NavopExtensions.Lib.Overlay
import NavopExtensions.Rocketmq.Message
import NavopExtensions.Rocketmq.Send

/-!
# Properties on the wire

`RocketmqConnection::send_message` of `rocketmq/src/admin.rs` writes the properties of a message as
the text `k=v;k=v`, which `parse_properties` of `rocketmq/src/message.rs` reads. Nothing is escaped,
so that a text is read back as the properties that were to be sent exactly when no key has a separator
and no value a semicolon (`properties_survive_iff`).
-/

namespace Navop
namespace Rocketmq

open Overlay

/-- One property, over what was there before. -/
def property (key value : String) : Patch String String := fun k => if k = key then some value else none

/-- The properties that a message is to have: its tag and its key if they are not blank, and over
them its own properties, the later ones over the earlier ones. -/
def intendedProperties (req : SendMessageRequest) : Patch String String :=
  stack <| [((req.tag.filter isFilled).elim blank (property "TAGS")),
    ((req.key.filter isFilled).elim blank (property "KEYS"))]
      ++ req.properties.map fun entry => property entry.1 entry.2

/-- The entries of a map. -/
def entries (fields : Fields) : Patch String String := fun key => fields.lookup key

theorem entries_insert (fields : Fields) (key value : String) :
    entries (fields.insert key value) = paint (entries fields) (property key value) := by
  funext k
  by_cases hk : k = key
  · subst hk
    simp [entries, paint, property]
  · simp [entries, paint, property, hk, Finmap.lookup_insert_of_ne fields hk]

theorem entries_foldl_insert (properties : List (String × String)) (fields : Fields) :
    entries (properties.foldl (fun fields entry => fields.insert entry.1 entry.2) fields)
      = paint (entries fields) (stack (properties.map fun entry => property entry.1 entry.2)) := by
  induction properties generalizing fields with
  | nil => exact (paint_blank _).symm
  | cons entry properties ih =>
    rw [List.foldl_cons, ih, entries_insert, List.map_cons, stack_cons, paint_assoc]

/-- The map of a send has the properties that are to be sent. -/
theorem entries_messageProperties (req : SendMessageRequest) :
    entries (messageProperties req) = intendedProperties req := by
  have hempty : entries ∅ = blank := rfl
  rw [intendedProperties, stack_append, messageProperties, entries_foldl_insert, stack_cons, stack_cons,
    stack_nil, paint_blank]
  congr 1
  cases req.tag.filter isFilled <;> cases req.key.filter isFilled
  · exact (blank_paint blank).symm
  · rw [entries_insert, hempty]
    rfl
  · rw [entries_insert, hempty]
    exact (blank_paint _).trans (paint_blank _).symm
  · rw [entries_insert, entries_insert, hempty, blank_paint]
    rfl

/-! ### Reading the text -/

/-- What a property needs so that it can be written. -/
structure Plain (key value : String) : Prop where
  key_semicolon : ';' ∉ key.toList
  key_equals : '=' ∉ key.toList
  value_semicolon : ';' ∉ value.toList

/-- Every entry of the map can be written. -/
def AllPlain (properties : Patch String String) : Prop :=
  ∀ key value, properties key = some value → Plain key value

theorem AllPlain.insert {fields : Fields} {key value : String} (h : AllPlain (entries fields))
    (hplain : Plain key value) : AllPlain (entries (fields.insert key value)) := by
  intro k v hlookup
  rw [entries_insert, paint_apply, property] at hlookup
  by_cases hk : k = key
  · rw [if_pos hk, Option.some_or, Option.some.injEq] at hlookup
    exact hk ▸ hlookup ▸ hplain
  · rw [if_neg hk, Option.none_or] at hlookup
    exact h k v hlookup

theorem AllPlain.insertPair {map : Fields} {pair : List Char} (h : AllPlain (entries map))
    (hpair : ';' ∉ pair) : AllPlain (entries (insertPair map pair)) := by
  rw [Rocketmq.insertPair]
  split
  · exact h
  · rw [Text.splitOnce]
    split
    · next key value hsplit =>
      -- the key stands in front of the first `=`
      split at hsplit
      · obtain ⟨rfl, rfl⟩ := Prod.mk.inj (Option.some.inj hsplit)
        refine h.insert ⟨?_, ?_, ?_⟩
        · rw [String.toList_ofList]
          exact fun hmem => hpair (List.takeWhile_subset _ hmem)
        · rw [String.toList_ofList]
          exact fun hmem => absurd (List.mem_takeWhile_imp hmem) (by simp)
        · rw [String.toList_ofList]
          exact fun hmem => hpair (List.dropWhile_subset _ (List.mem_of_mem_tail hmem))
      · exact absurd hsplit (by simp)
    · next hsplit =>
      have hequals : '=' ∉ pair := by
        intro hmem
        rw [if_pos hmem] at hsplit
        exact absurd hsplit (by simp)
      refine h.insert ⟨?_, ?_, by simp⟩
      · rwa [String.toList_ofList]
      · rwa [String.toList_ofList]

/-- What is read from a text can be written. -/
theorem allPlain_parseProperties (text : String) : AllPlain (entries (parseProperties text)) := by
  have hrun (pairs : List (List Char)) (hpairs : ∀ pair ∈ pairs, ';' ∉ pair) (map : Fields)
      (hmap : AllPlain (entries map)) : AllPlain (entries (pairs.foldl insertPair map)) := by
    induction pairs generalizing map with
    | nil => exact hmap
    | cons pair pairs ih =>
      exact ih (fun pair hpair => hpairs pair (List.mem_cons_of_mem _ hpair)) _
        (hmap.insertPair (hpairs pair List.mem_cons_self))
  refine hrun _ (fun pair hpair => Text.not_mem_of_mem_splitOn hpair) ∅ ?_
  exact fun _ _ h => absurd h (by simp [entries])

/-! ### Writing the text -/

/-- The text of one property. -/
def pairText (fields : Fields) (key : String) : String :=
  key ++ "=" ++ (fields.lookup key).getD ""

theorem insertPair_pairText {map fields : Fields} {key value : String}
    (hkey : entries fields key = some value) (hplain : Plain key value) :
    insertPair map (pairText fields key).toList = map.insert key value := by
  have htext : (pairText fields key).toList = key.toList ++ '=' :: value.toList := by
    rw [pairText, show fields.lookup key = some value from hkey]
    simp
  have hfilled : (key.toList ++ '=' :: value.toList).isEmpty = false :=
    List.isEmpty_eq_false_iff.2 (by simp)
  rw [htext, insertPair, hfilled, Text.splitOnce_append hplain.key_equals]
  simp

/-- The entries of a text: those that are read from its pairs. -/
theorem entries_foldl_pairText {fields : Fields} (h : AllPlain (entries fields)) (keys : List String)
    (hkeys : ∀ key ∈ keys, key ∈ fields.keys) (map : Fields) (key : String) :
    entries ((keys.map fun k => (pairText fields k).toList).foldl insertPair map) key
      = if key ∈ keys then entries fields key else entries map key := by
  induction keys generalizing map with
  | nil => rfl
  | cons k keys ih =>
    obtain ⟨value, hvalue⟩ := Finmap.mem_iff.1 (Finmap.mem_keys.1 (hkeys k List.mem_cons_self))
    have hentry : entries fields k = some value := hvalue
    rw [List.map_cons, List.foldl_cons, insertPair_pairText hentry (h k value hentry),
      ih fun k' hk' => hkeys k' (List.mem_cons_of_mem _ hk')]
    rw [entries_insert, paint_apply, property]
    by_cases hmem : key ∈ keys
    · rw [if_pos hmem, if_pos (List.mem_cons_of_mem _ hmem)]
    · rw [if_neg hmem]
      by_cases heq : key = k
      · subst heq
        rw [if_pos rfl, Option.some_or, if_pos List.mem_cons_self, hentry]
      · rw [if_neg heq, Option.none_or, if_neg fun hcons => (List.mem_cons.1 hcons).elim heq hmem]

/-- Entries that can be written are read back. -/
theorem entries_parseProperties {fields : Fields} (h : AllPlain (entries fields)) :
    entries (parseProperties (propertiesText fields)) = entries fields := by
  -- the pairs in the order of their keys, with semicolons between them
  have htext : (propertiesText fields).toList = [';'].intercalate
      ((fields.keys.sort (· ≤ ·)).map fun key => (pairText fields key).toList) := by
    rw [propertiesText, String.toList_intercalate, List.map_map]
    rfl
  rw [parseProperties, htext]
  by_cases hempty : fields.keys.sort (· ≤ ·) = []
  · -- There is one piece, and it is empty.
    rw [hempty]
    have hnone (key : String) : entries fields key = none := by
      refine Finmap.lookup_eq_none.2 fun hmem => ?_
      have hsort := (Finset.mem_sort (· ≤ ·)).2 (Finmap.mem_keys.2 hmem)
      rw [hempty] at hsort
      exact List.not_mem_nil hsort
    exact (funext hnone).symm
  · rw [List.splitOn_intercalate]
    · funext key
      rw [entries_foldl_pairText h _ fun k hk => (Finset.mem_sort (· ≤ ·)).1 hk]
      by_cases hkey : key ∈ fields.keys.sort (· ≤ ·)
      · exact if_pos hkey
      · rw [if_neg hkey]
        have hnone : entries fields key = none := Finmap.lookup_eq_none.2 fun hmem =>
          hkey ((Finset.mem_sort _).2 (Finmap.mem_keys.2 hmem))
        rw [hnone]
        rfl
    · -- No pair has a semicolon.
      intro pair hpair
      obtain ⟨key, hkey, rfl⟩ := List.mem_map.1 hpair
      obtain ⟨value, hvalue⟩ :=
        Finmap.mem_iff.1 (Finmap.mem_keys.1 ((Finset.mem_sort (· ≤ ·)).1 hkey))
      obtain ⟨hsemicolon, -, hvalue'⟩ := h key value hvalue
      rw [pairText, hvalue]
      simp [hsemicolon, hvalue']
    · exact fun hmap => hempty (List.map_eq_nil_iff.1 hmap)

/-- The properties in the headers of both requests. -/
theorem lookup_build (req : SendMessageRequest) (stamp : Stamp) (queueId : Int32) :
    (buildV2 req stamp queueId).extFields.lookup "i" = some (propertiesText (messageProperties req)) ∧
      (buildV1 req stamp queueId).extFields.lookup "properties"
        = some (propertiesText (messageProperties req)) := by
  constructor
  · simp only [buildV2, RemotingCommand.withBody, RemotingCommand.createRequest, List.foldl_cons,
      List.foldl_nil]
    exact Finmap.lookup_insert _
  · simp only [buildV1, RemotingCommand.withBody, RemotingCommand.createRequest, List.foldl_cons,
      List.foldl_nil]
    exact Finmap.lookup_insert _

/-- **When properties survive the wire.** The texts in the headers of both requests are read as the
properties that the message is to have exactly when none of its keys has a semicolon or an equals
sign, and none of its values a semicolon. -/
theorem properties_survive_iff (req : SendMessageRequest) (stamp : Stamp) (queueId : Int32) :
    (∃ v₂ v₁, (buildV2 req stamp queueId).extFields.lookup "i" = some v₂ ∧
      (buildV1 req stamp queueId).extFields.lookup "properties" = some v₁ ∧
      entries (parseProperties v₂) = intendedProperties req ∧
      entries (parseProperties v₁) = intendedProperties req) ↔
      AllPlain (intendedProperties req) := by
  obtain ⟨hv₂, hv₁⟩ := lookup_build req stamp queueId
  constructor
  · rintro ⟨v₂, -, -, -, hread, -⟩
    exact hread ▸ allPlain_parseProperties v₂
  · intro hplain
    have hread := entries_parseProperties (entries_messageProperties req ▸ hplain)
    rw [entries_messageProperties] at hread
    exact ⟨_, _, hv₂, hv₁, hread, hread⟩

/-- A message with a note that has a semicolon. -/
def notedRequest : SendMessageRequest :=
  ⟨"orders", none, none, [1], [("note", "paid;by=card")]⟩

/-- A network whose broker stores the message and says so. -/
def promptNetwork : Network := fun _ _ _ =>
  ⟨true, .ok { RemotingCommand.createRequest 0 ∅ with flag := 1, opaqueId := 1 }⟩

/-- **A note is cut, and another property appears.** The message is accepted. -/
theorem note_cut :
    (sendMessage notedRequest ⟨1700000000000, "0123456789abcdef"⟩ promptNetwork (.ok singleRoute) 0).1
        = .ok ⟨"", "OK"⟩ ∧
      intendedProperties notedRequest "note" = some "paid;by=card" ∧
      intendedProperties notedRequest "by" = none ∧
      ∃ text, (buildV2 notedRequest ⟨1700000000000, "0123456789abcdef"⟩ 0).extFields.lookup "i"
          = some text ∧
        entries (parseProperties text) "note" = some "paid" ∧
        entries (parseProperties text) "by" = some "card" ∧
        entries (parseProperties text) ≠ intendedProperties notedRequest := by
  have hkeys : (messageProperties notedRequest).keys = {"note"} := by decide
  have htext : propertiesText (messageProperties notedRequest) = "note=paid;by=card" := by
    rw [propertiesText, hkeys, Finset.sort_singleton]
    decide
  have hby : entries (parseProperties "note=paid;by=card") "by" = some "card" := by decide
  refine ⟨rfl, by decide, by decide, _, (lookup_build _ _ _).1, ?_⟩
  rw [htext]
  refine ⟨by decide, hby, fun hsame => ?_⟩
  exact absurd (hby.symm.trans (congrFun hsame "by")) (by decide)

end Rocketmq
end Navop
