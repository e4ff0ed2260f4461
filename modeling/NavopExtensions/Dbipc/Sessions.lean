import NavopExtensions.Dbipc.Changes
import NavopExtensions.Lib.Since
import NavopExtensions.Lib.Tables

/-!
# Connections of the Go server and what belongs to them

Cursors, transactions and imports belong to connections. After every run, something is in the tables exactly
if it was given out and neither ended nor closed since, with its connection or by a shutdown; then its
connection is open. No id is given out twice (`open_iff`).
-/

namespace Navop
namespace DbipcServer

open History Machine Tables

variable {ρ : Type*}

/-! ### The tables -/

/-- The tables are in order: everything in them belongs to a connection that is open, and has an id that has
been given out. -/
structure Sound (spec : String) (s : State ρ) : Prop where
  conns : ∀ connID ∈ s.conns, connID < s.nextConnID
  cursors : Owned Cursor.connID (cursorIDOf spec) s.conns s.nextCursor s.cursors
  txs : Owned Tx.connID (txIDOf spec) s.conns s.nextTx s.txs
  imports : Owned Import.connID (importIDOf spec) s.conns s.nextImport s.imports

/-- Something is there, and whose it is. -/
def Has (s : State ρ) : Issue → Option ℕ → Prop
  | .conn connID, none => connID ∈ s.conns
  | .cursor cursorID, some connID => ownerAt Cursor.connID s.cursors cursorID = some connID
  | .tx txID, some connID => ownerAt Tx.connID s.txs txID = some connID
  | .import importID, some connID => ownerAt Import.connID s.imports importID = some connID
  | _, _ => False

section Tables

variable {spec : String} {answers : Answers ρ} {s s' : State ρ} {request : Request} {reply : Reply ρ}

theorem sound_newServer : Sound spec (newServer ρ) where
  conns connID h := absurd h (Finset.notMem_empty connID)
  cursors := owned_empty
  txs := owned_empty
  imports := owned_empty

theorem Change.sound (h : Change spec answers s request s' reply) (hs : Sound spec s) : Sound spec s' := by
  obtain ⟨hconns, hcursors, htxs, himports⟩ := hs
  cases h with
  | kept | initialized | streams => exact ⟨hconns, hcursors, htxs, himports⟩
  -- the new connection is below the counter, and the owners of the others are still open
  | opened =>
    refine ⟨fun connID hconn => ?_, hcursors.mono (Finset.subset_insert _ _),
      htxs.mono (Finset.subset_insert _ _), himports.mono (Finset.subset_insert _ _)⟩
    rcases Finset.mem_insert.1 hconn with rfl | hconn
    · exact Nat.lt_succ_self _
    · exact Nat.lt_succ_of_lt (hconns connID hconn)
  -- a closed connection takes everything that it owns out of the tables
  | closed => exact ⟨fun connID hconn => hconns connID (Finset.mem_of_mem_erase hconn),
      hcursors.retain _, htxs.retain _, himports.retain _⟩
  | shutDown => exact ⟨fun connID hconn => absurd hconn (Finset.notMem_empty connID), owned_empty,
      owned_empty, owned_empty⟩
  | started hconn => exact ⟨hconns, hcursors.add hconn, htxs, himports⟩
  | cursorSet _ _ hlookup howner => exact ⟨hconns, hcursors.set hlookup howner, htxs, himports⟩
  | cursorErased => exact ⟨hconns, hcursors.erase _, htxs, himports⟩
  | begun hconn => exact ⟨hconns, hcursors, htxs.add hconn, himports⟩
  | endFailed _ hlookup => exact ⟨hconns, hcursors, htxs.set hlookup rfl, himports⟩
  | ended => exact ⟨hconns, hcursors, htxs.erase _, himports⟩
  | importing hconn => exact ⟨hconns, hcursors, htxs, himports.add hconn⟩
  | importSet _ hlookup howner => exact ⟨hconns, hcursors, htxs, himports.set hlookup howner⟩
  | importErased => exact ⟨hconns, hcursors, htxs, himports.erase _⟩

/-- A request that is idle leaves everything as it is. -/
theorem has_iff_of_idle {issue : Issue} {owner : Option ℕ} (hidle : Idle request reply)
    (hhas : Has s' issue owner ↔ Has s issue owner) :
    Has s' issue owner ↔ Makes request reply issue owner ∨
      (Has s issue owner ∧ ¬ Ends request reply issue owner) := by
  have hmakes : ¬ Makes request reply issue owner := fun h => by simp [Makes, hidle.issued] at h
  rw [hhas, or_iff_right hmakes, and_iff_left (hidle.ends issue owner)]

/-- A request makes something. -/
theorem has_iff_of_made {issue made : Issue} {owner : Option ℕ} (hissued : reply.issued = some made)
    (hends : request.ends = none) (hcloses : ¬ request.Closes issue owner)
    (hhas : Has s' issue owner ↔ (made = issue ∧ request.owner = owner) ∨ Has s issue owner) :
    Has s' issue owner ↔ Makes request reply issue owner ∨
      (Has s issue owner ∧ ¬ Ends request reply issue owner) := by
  have hnot : ¬ Ends request reply issue owner := by
    rintro (h | h)
    · exact hcloses h.2
    · simp [hends] at h
  rw [hhas, and_iff_left hnot, Makes, hissued, Option.some.injEq]

/-- A request takes something away. -/
theorem has_iff_of_gone {issue : Issue} {owner : Option ℕ} (hissued : reply.issued = none)
    (hhas : Has s' issue owner ↔ Has s issue owner ∧ ¬ Ends request reply issue owner) :
    Has s' issue owner ↔ Makes request reply issue owner ∨
      (Has s issue owner ∧ ¬ Ends request reply issue owner) := by
  have hmakes : ¬ Makes request reply issue owner := fun h => by simp [Makes, hissued] at h
  rw [hhas, or_iff_right hmakes]

/-- A request ends one thing. -/
theorem ends_iff {request : Request} {reply : Reply ρ} {ended issue : Issue} {owner : Option ℕ}
    (hends : request.ends = some ended) (herror : reply.isError = false) :
    Ends request reply issue owner ↔ ended = issue := by
  have hcloses : ¬ request.Closes issue owner := by
    cases request <;> first | exact id | exact absurd hends (by simp [Request.ends])
  simp [Ends, hcloses, hends, herror]

/-- **What is there** after a request: what it makes, and what it leaves. -/
theorem Change.has_iff (h : Change spec answers s request s' reply) (hs : Sound spec s) (issue : Issue)
    (owner : Option ℕ) :
    Has s' issue owner ↔ Makes request reply issue owner ∨
      (Has s issue owner ∧ ¬ Ends request reply issue owner) := by
  obtain ⟨hconns, hcursors, htxs, himports⟩ := hs
  cases h with
  | kept hidle => exact has_iff_of_idle hidle Iff.rfl
  | streams hidle => exact has_iff_of_idle hidle (by cases issue <;> cases owner <;> rfl)
  | cursorSet hidle _ hlookup howner =>
    refine has_iff_of_idle hidle ?_
    cases issue <;> cases owner <;> simp only [Has, ownerAt_set hlookup howner]
  | importSet hissued hlookup howner =>
    refine has_iff_of_idle (idle_of_ends hissued rfl fun _ _ h => h) ?_
    cases issue <;> cases owner <;> simp only [Has, ownerAt_set hlookup howner]
  | initialized =>
    refine has_iff_of_idle (idle_of_ends rfl rfl fun _ _ h => h) ?_
    cases issue <;> cases owner <;> rfl
  | opened =>
    refine has_iff_of_made rfl rfl id ?_
    cases issue <;> cases owner <;> simp [Has, Request.owner, eq_comm]
  | closed hissued hrefusal =>
    refine has_iff_of_gone hissued ?_
    cases issue <;> cases owner <;> simp only [Has, ownerAt_retain] <;>
      simp [Ends, hrefusal, Request.Closes, Request.ends, and_comm]
  | shutDown hissued hrefusal =>
    refine has_iff_of_gone hissued ?_
    cases issue <;> cases owner <;> simp [Has, Ends, hrefusal, Request.Closes]
  | started =>
    refine has_iff_of_made rfl rfl id ?_
    cases issue <;> cases owner <;>
      simp [Has, Request.owner, ownerAt_add hcursors (idOf_injective spec "-cursor-")]
  | cursorErased =>
    refine has_iff_of_gone rfl ?_
    rw [ends_iff rfl rfl]
    cases issue <;> cases owner <;> simp [Has, ownerAt_erase]
  | begun =>
    refine has_iff_of_made rfl rfl id ?_
    cases issue <;> cases owner <;>
      simp [Has, Request.owner, ownerAt_add htxs (idOf_injective spec "-tx-")]
  | @endFailed request txID tx hends hlookup =>
    -- The transaction has ended, but it is still in the table.
    refine has_iff_of_gone rfl ?_
    have hnot : ¬ Ends request (.failed .sqlSyntax : Reply ρ) issue owner := by
      rintro (h | h)
      · cases request <;> first | exact h.2 | exact absurd hends (by simp [Request.ends])
      · exact absurd h.1 Bool.noConfusion
    rw [and_iff_left hnot]
    have hset : ∀ key, ownerAt Tx.connID (s.txs.insert txID { tx with ended := true }) key
        = ownerAt Tx.connID s.txs key := fun key => ownerAt_set hlookup rfl
    cases issue <;> cases owner <;> simp only [Has, hset]
  | ended hends =>
    refine has_iff_of_gone rfl ?_
    rw [ends_iff hends rfl]
    cases issue <;> cases owner <;> simp [Has, ownerAt_erase]
  | importing =>
    refine has_iff_of_made rfl rfl id ?_
    cases issue <;> cases owner <;>
      simp [Has, Request.owner, ownerAt_add himports (idOf_injective spec "-import-")]
  | importErased hends hissued herror =>
    refine has_iff_of_gone hissued ?_
    rw [ends_iff hends herror]
    cases issue <;> cases owner <;> simp [Has, ownerAt_erase]

/-- Everything belongs to a connection that is open. -/
theorem Sound.conn_of_has (hs : Sound spec s) {issue : Issue} {connID : ℕ}
    (h : Has s issue (some connID)) : Has s (.conn connID) none := by
  cases issue with
  | conn => exact absurd h id
  | cursor cursorID => exact hs.cursors.mem_of_ownerAt h
  | tx txID => exact hs.txs.mem_of_ownerAt h
  | «import» importID => exact hs.imports.mem_of_ownerAt h

/-! ### Ids -/

/-- An id that the counters have passed. -/
def Given (spec : String) (s : State ρ) : Issue → Prop
  | .conn connID => connID < s.nextConnID
  | .cursor cursorID => ∃ n < s.nextCursor, cursorID = cursorIDOf spec n
  | .tx txID => ∃ n < s.nextTx, txID = txIDOf spec n
  | .import importID => ∃ n < s.nextImport, importID = importIDOf spec n

theorem not_exists_idOf {kind : String} {n : ℕ} : ¬ ∃ m < n, idOf spec kind n = idOf spec kind m := by
  rintro ⟨m, hm, h⟩
  exact absurd (idOf_injective spec kind h) (Nat.ne_of_gt hm)

theorem exists_idOf_succ {kind : String} {n : ℕ} {id : String} (h : ∃ m < n, id = idOf spec kind m) :
    ∃ m < n + 1, id = idOf spec kind m :=
  h.imp fun _ h => ⟨Nat.lt_succ_of_lt h.1, h.2⟩

/-- The counters go up. -/
theorem Change.given (h : Change spec answers s request s' reply) {issue : Issue}
    (hgiven : Given spec s issue) : Given spec s' issue := by
  cases h with
  | opened => cases issue <;> first | exact Nat.lt_succ_of_lt hgiven | exact hgiven
  | started => cases issue <;> first | exact hgiven | exact exists_idOf_succ hgiven
  | begun => cases issue <;> first | exact hgiven | exact exists_idOf_succ hgiven
  | importing => cases issue <;> first | exact hgiven | exact exists_idOf_succ hgiven
  | _ => cases issue <;> exact hgiven

/-- No counter has passed a number. -/
def CountersLe (n : ℕ) (s : State ρ) : Prop :=
  s.nextConnID ≤ n ∧ s.nextCursor ≤ n ∧ s.nextTx ≤ n ∧ s.nextImport ≤ n

/-- A request gives out one id at most, and only one counter goes up. -/
theorem Change.countersLe (h : Change spec answers s request s' reply) {n : ℕ} (hs : CountersLe n s) :
    CountersLe (n + 1) s' := by
  obtain ⟨hconns, hcursors, htxs, himports⟩ := hs
  have hkept : ∀ {m : ℕ}, m ≤ n → m ≤ n + 1 := Nat.le_succ_of_le
  cases h with
  | opened => exact ⟨Nat.succ_le_succ hconns, hkept hcursors, hkept htxs, hkept himports⟩
  | started => exact ⟨hkept hconns, Nat.succ_le_succ hcursors, hkept htxs, hkept himports⟩
  | begun => exact ⟨hkept hconns, hkept hcursors, Nat.succ_le_succ htxs, hkept himports⟩
  | importing => exact ⟨hkept hconns, hkept hcursors, hkept htxs, Nat.succ_le_succ himports⟩
  | _ => exact ⟨hkept hconns, hkept hcursors, hkept htxs, hkept himports⟩

/-- What is given out is new. -/
theorem Change.issued (h : Change spec answers s request s' reply) {issue : Issue}
    (hissued : reply.issued = some issue) : ¬ Given spec s issue ∧ Given spec s' issue := by
  cases h with
  | kept hidle => rw [hidle.issued] at hissued; cases hissued
  | cursorSet hidle => rw [hidle.issued] at hissued; cases hissued
  | importSet hnone => rw [hnone] at hissued; cases hissued
  | streams hidle => rw [hidle.issued] at hissued; cases hissued
  | closed hnone => rw [hnone] at hissued; cases hissued
  | shutDown hnone => rw [hnone] at hissued; cases hissued
  | importErased _ hnone => rw [hnone] at hissued; cases hissued
  | opened => cases hissued; exact ⟨Nat.lt_irrefl _, Nat.lt_succ_self _⟩
  | started => cases hissued; exact ⟨not_exists_idOf, _, Nat.lt_succ_self _, rfl⟩
  | begun => cases hissued; exact ⟨not_exists_idOf, _, Nat.lt_succ_self _, rfl⟩
  | importing => cases hissued; exact ⟨not_exists_idOf, _, Nat.lt_succ_self _, rfl⟩
  | _ => cases hissued

end Tables

/-! ### Runs -/

section Runs

variable (spec : String) (marshals : ρ → Bool) (quote : String → String) (isPrint : Char → Bool)

/-- What is there, after a history. -/
def Open (log : List (Event ρ)) (issue : Issue) (owner : Option ℕ) : Prop :=
  Since (fun event => Makes event.request event.reply issue owner)
    (fun event => Ends event.request event.reply issue owner) log

/-- A request and its reply. -/
def eventOf (s : State ρ) (input : Answers ρ × Request) : Event ρ :=
  ⟨input.1, input.2, (handle spec marshals quote isPrint input.1 s input.2).calls,
    (handle spec marshals quote isPrint input.1 s input.2).reply⟩

/-- The server and its history. -/
structure Agree (log : List (Event ρ)) (s : State ρ) : Prop where
  sound : Sound spec s
  has_iff : ∀ issue owner, Has s issue owner ↔ Open log issue owner
  given : ∀ event ∈ log, ∀ issue, event.reply.issued = some issue → Given spec s issue
  nodup : (log.filterMap fun event => event.reply.issued).Nodup

theorem nodup_filterMap_singleton {α β : Type*} (f : α → Option β) (a : α) :
    ([a].filterMap f).Nodup := by
  cases h : f a <;> simp [h]

theorem agree_newServer : Agree spec [] (newServer ρ) where
  sound := sound_newServer
  has_iff issue owner := by
    refine iff_of_false ?_ not_since_nil
    cases issue <;> cases owner <;> simp [Has, newServer]
  given _ h := absurd h List.not_mem_nil
  nodup := List.nodup_nil

variable {spec marshals quote isPrint}

theorem Agree.step {log : List (Event ρ)} {s : State ρ} (h : Agree spec log s)
    (input : Answers ρ × Request) :
    Agree spec (log ++ [eventOf spec marshals quote isPrint s input])
      (DbipcServer.step spec marshals quote isPrint s input).1 := by
  have hchange : Change spec input.1 s input.2 (handle spec marshals quote isPrint input.1 s input.2).state
      (handle spec marshals quote isPrint input.1 s input.2).reply := change input.2
  refine ⟨hchange.sound h.sound, fun issue owner => ?_, fun event hevent issue hissued => ?_, ?_⟩
  -- open after the step: it was given out now, or it was open and the step does not take it away
  · rw [Open, since_concat]
    exact (hchange.has_iff h.sound issue owner).trans
      (or_congr Iff.rfl (and_congr (h.has_iff issue owner) Iff.rfl))
  · rcases List.mem_append.1 hevent with hevent | hevent
    · exact hchange.given (h.given event hevent issue hissued)
    · obtain rfl := List.mem_singleton.1 hevent
      exact (hchange.issued hissued).2
  -- the new id is none of the old ones, which are all below the counters
  · rw [List.filterMap_append]
    refine List.Nodup.append h.nodup (nodup_filterMap_singleton _ _) ?_
    · intro issue hbefore hnew
      obtain ⟨event, hevent, hissued⟩ := List.mem_filterMap.1 hbefore
      obtain ⟨last, hlast, hnew⟩ := List.mem_filterMap.1 hnew
      obtain rfl := List.mem_singleton.1 hlast
      exact (hchange.issued hnew).1 (h.given event hevent issue hissued)

theorem run_agree (inputs : List (Answers ρ × Request)) :
    Agree spec (run (step spec marshals quote isPrint) (newServer ρ) inputs).2
      (run (step spec marshals quote isPrint) (newServer ρ) inputs).1 :=
  run_history (H := fun _ log s => Agree spec log s) (P := fun _ => True) (fun _ _ _ => trivial)
    (fun _ _ _ input h _ => h.step input) (agree_newServer spec) trivial

theorem run_countersLe (inputs : List (Answers ρ × Request)) :
    CountersLe (inputs.length + 1) (run (step spec marshals quote isPrint) (newServer ρ) inputs).1 := by
  refine run_history (H := fun is _ s => CountersLe (is.length + 1) s) (P := fun _ => True)
    (fun _ _ _ => trivial) (fun is _ s input h _ => ?_) ⟨le_rfl, le_rfl, le_rfl, le_rfl⟩ trivial
  rw [List.length_append]
  exact (change input.2).countersLe h

end Runs

/-- **What is open is what the history says.** Something is there exactly if it was given out and not ended
since, and then its connection is open; no id is given out twice. The counters stay within 64 bits as long
as there are fewer than `2 ^ 64 - 1` requests. -/
theorem open_iff (spec : String) (marshals : ρ → Bool) (quote : String → String) (isPrint : Char → Bool)
    (inputs : List (Answers ρ × Request)) (hlength : inputs.length < 2 ^ 64 - 1) :
    let last := run (step spec marshals quote isPrint) (newServer ρ) inputs
    (∀ issue owner, Has last.1 issue owner ↔ Open last.2 issue owner) ∧
      (∀ issue connID, Has last.1 issue (some connID) → Has last.1 (.conn connID) none) ∧
      (last.2.filterMap fun event => event.reply.issued).Nodup ∧ CountersLe (2 ^ 64 - 1) last.1 := by
  intro last
  have h : Agree spec last.2 last.1 := run_agree inputs
  have hcounters : CountersLe (inputs.length + 1) last.1 := run_countersLe inputs
  have hfits : inputs.length + 1 ≤ 2 ^ 64 - 1 := hlength
  obtain ⟨hconns, hcursors, htxs, himports⟩ := hcounters
  exact ⟨h.has_iff, fun issue connID hhas => h.sound.conn_of_has hhas, h.nodup, hconns.trans hfits,
    hcursors.trans hfits, htxs.trans hfits, himports.trans hfits⟩

/-- A database of which only some calls fail. -/
def answering (fails : List Call) : Answers Unit :=
  ⟨fun call => call ∈ fails, fun _ => .done (some 1), ⟨[], none⟩, ([], 0), .sorted String, .sorted ℕ⟩

/-- A connection is opened, and a transaction is begun on it. -/
def opening : List (Answers Unit × Request) :=
  [(answering [], .init none), (answering [], .connOpen none), (answering [], .txBegin 1)]

/-- A server of a driver `d`, after some requests. -/
def served (inputs : List (Answers Unit × Request)) : State Unit × List (Event Unit) :=
  run (step "d" (fun _ => true) id (fun _ => true)) (newServer Unit) inputs

/-- The transaction is in the table, so it has been begun and not ended. -/
theorem open_iff_opening : Open (served opening).2 (.tx "d-tx-1") (some 1) :=
  ((open_iff "d" (fun _ => true) id (fun _ => true) opening (by decide)).1 _ _).1 rfl

end DbipcServer
end Navop
