import NavopExtensions.Rdp.Input

/-!
# Pointer input under back-pressure

A button or wheel operation is applied at the position of the last move that was requested since the
last resize, even when that move was given up because the channel was full. The slot for such a move
and the database make up for each other (`InStep`): the last move is in the slot, or the mouse is
there already. Whatever is sent reliably gets exactly one slot of the channel, so the operations that
are applied are those of the requests, each once and in order (`Carries`).

How long a request may have to wait is counted in free answers (`cost`): with as many as the requests
cost in total, every call returns.
-/

namespace Navop
namespace Rdp
namespace Input

variable {Db ε : Type} {lib : InputDatabase Db ε}

/-! ### What is expected of a run -/

/-- The operation of a `MouseButton` or `Wheel` request. -/
def pointerOperation : HelperRequest → Option Operation
  | .mouseButton button pressed => some (mouseButtonOperation button pressed)
  | .wheel vertical units => some (.wheelRotations vertical units)
  | _ => none

/-- Read a request, knowing the last move since the last resize: what is known afterwards, and the
operation of the request with what was known before. -/
def moment (last : Option MousePosition) (request : HelperRequest) :
    Option MousePosition × List (Operation × Option MousePosition) :=
  (match request with
    | .resize .. => none
    | .mouseMove x y => some ⟨x, y⟩
    | _ => last,
    (pointerOperation request).toList.map fun operation => (operation, last))

/-- The last move since the last resize. -/
def lastMove (requests : List HelperRequest) : Option MousePosition :=
  (Machine.run moment none requests).1

/-- The pointer operations that are requested, each with the last move before it. -/
def pointerMoments (requests : List HelperRequest) : List (Operation × Option MousePosition) :=
  (Machine.run moment none requests).2

theorem lastMove_concat (requests : List HelperRequest) (request : HelperRequest) :
    lastMove (requests ++ [request]) = (moment (lastMove requests) request).1 := by
  rw [lastMove, Machine.run_concat]
  rfl

theorem pointerMoments_concat (requests : List HelperRequest) (request : HelperRequest) :
    pointerMoments (requests ++ [request])
      = pointerMoments requests ++ (moment (lastMove requests) request).2 := by
  rw [pointerMoments, Machine.run_concat]
  rfl

/-- A button or wheel operation. -/
def Operation.isPointer : Operation → Bool
  | .mouseButtonPressed _ | .mouseButtonReleased _ | .wheelRotations .. => true
  | _ => false

/-- The slot was granted for a pointer operation. -/
def Grant.isPointer (grant : Grant Db ε) : Bool := grant.built.operations.any Operation.isPointer

/-- The slot was used for this operation, at the position of the last move: the operation is the last
of those that were applied, and the event on the channel is what the database made of them. -/
structure Applied (lib : InputDatabase Db ε) (grant : Grant Db ε)
    (expected : Operation × Option MousePosition) : Prop where
  database : grant.built.database = (lib.apply grant.before grant.built.operations).1
  event : grant.built.event = fastPathEvent (lib.apply grant.before grant.built.operations).2
  operations : ∃ moves, grant.built.operations = moves ++ [expected.1] ∧
    (∀ operation ∈ moves, operation.isPointer = false) ∧
    ∀ position, expected.2 = some position →
      lib.mousePosition (lib.apply grant.before moves).1 = position

/-- From one database to another by the slots that were granted. -/
def Chained : Db → List (Grant Db ε) → Db → Prop
  | first, [], last => first = last
  | first, grant :: granted, last => grant.before = first ∧ Chained grant.built.database granted last

/-! ### The database -/

theorem apply_cons (database : Db) (operation : Operation) (operations : List Operation) :
    lib.apply database (operation :: operations)
      = ((lib.apply (lib.perform database operation).1 operations).1,
        (lib.perform database operation).2
          ++ (lib.apply (lib.perform database operation).1 operations).2) := rfl

/-- **Silent operations.** Operations without events have changed nothing. -/
theorem apply_silent (hlib : lib.Lawful) {database : Db} {operations : List Operation}
    (h : (lib.apply database operations).2 = []) :
    (lib.apply database operations).1 = database := by
  induction operations generalizing database with
  | nil => rfl
  | cons operation operations ih =>
    rw [apply_cons] at h ⊢
    obtain ⟨hfirst, hrest⟩ := List.append_eq_nil_iff.mp h
    have hsame := hlib.silent database operation hfirst
    rw [hsame] at hrest ⊢
    exact ih hrest

theorem apply_stays (hlib : lib.Lawful) {database : Db} {operations : List Operation}
    (h : ∀ operation ∈ operations, ∀ position, operation ≠ .mouseMove position) :
    lib.mousePosition (lib.apply database operations).1 = lib.mousePosition database := by
  induction operations generalizing database with
  | nil => rfl
  | cons operation operations ih =>
    rw [apply_cons]
    obtain ⟨hfirst, hrest⟩ := List.forall_mem_cons.mp h
    exact (ih hrest).trans (hlib.stays database operation hfirst)

/-! ### Slots -/

theorem Chained.concat {first last : Db} {granted : List (Grant Db ε)}
    (h : Chained first granted last) (built : Built Db ε) :
    Chained first (granted ++ [⟨last, built⟩]) built.database := by
  induction granted generalizing first with
  | nil => exact ⟨h.symm, rfl⟩
  | cons grant granted ih => exact ⟨h.1, ih h.2⟩

/-- The slots that were granted, and the database they have led to. -/
structure Carries (lib : InputDatabase Db ε) (first : Db)
    (expected : List (Operation × Option MousePosition)) (context : RdpInputContext Db ε) :
    Prop where
  chained : Chained first context.granted context.database
  changed : ∀ grant ∈ context.granted, grant.built.database ≠ grant.before →
    ∃ events, events ≠ [] ∧ grant.built.event = some (.fastPath events)
  applied : List.Forall₂ (Applied lib) (context.granted.filter Grant.isPointer) expected

variable {first : Db} {expected : List (Operation × Option MousePosition)}
  {context : RdpInputContext Db ε}

/-- Only the slots and the database matter. -/
theorem Carries.congr (h : Carries lib first expected context) {context' : RdpInputContext Db ε}
    (hgranted : context'.granted = context.granted) (hdatabase : context'.database = context.database) :
    Carries lib first expected context' := by
  refine ⟨?_, ?_, ?_⟩
  · rw [hgranted, hdatabase]
    exact h.chained
  · rw [hgranted]
    exact h.changed
  · rw [hgranted]
    exact h.applied

/-- A slot for something that is not a pointer operation. -/
theorem Carries.grant_other (h : Carries lib first expected context) (build : Db → Built Db ε)
    (hchanged : (build context.database).database ≠ context.database →
      ∃ events, events ≠ [] ∧ (build context.database).event = some (.fastPath events))
    (hother : ∀ operation ∈ (build context.database).operations, operation.isPointer = false)
    (answers : List Answer) : Carries lib first expected (context.grant build answers) := by
  refine ⟨h.chained.concat _, ?_, ?_⟩
  · intro grant hgrant
    obtain hgrant | hgrant := List.mem_append.mp hgrant
    · exact h.changed grant hgrant
    · obtain rfl := List.mem_singleton.mp hgrant
      exact hchanged
  · have hnot : Grant.isPointer ⟨context.database, build context.database⟩ = false := by
      rw [Grant.isPointer, List.any_eq_false]
      intro operation hoperation
      rw [hother operation hoperation]
      exact Bool.false_ne_true
    change List.Forall₂ _ ((context.granted ++ [_]).filter _) _
    rw [List.filter_append, List.filter_singleton, hnot]
    simpa using h.applied

/-- The database changes only together with the event that is put on the channel. -/
theorem buildOperations_changed (hlib : lib.Lawful) (operations : List Operation) (database : Db)
    (h : (buildOperations lib operations database).database ≠ database) :
    ∃ events, events ≠ [] ∧
      (buildOperations lib operations database).event = some (.fastPath events) := by
  have hevents : (lib.apply database operations).2 ≠ [] := fun hnil => h (apply_silent hlib hnil)
  refine ⟨_, hevents, ?_⟩
  change fastPathEvent _ = _
  rw [fastPathEvent, if_neg]
  rw [List.isEmpty_iff]
  exact hevents

/-- A slot for a pointer operation. -/
theorem Carries.grant_pointer (h : Carries lib first expected context) (hlib : lib.Lawful)
    (moves : List Operation) {operation : Operation}
    (hmoves : ∀ operation ∈ moves, operation.isPointer = false)
    (hpointer : operation.isPointer = true) {last : Option MousePosition}
    (hlast : ∀ position, last = some position →
      lib.mousePosition (lib.apply context.database moves).1 = position)
    (answers : List Answer) :
    Carries lib first (expected ++ [(operation, last)])
      (context.grant (buildOperations lib (moves ++ [operation])) answers) := by
  refine ⟨h.chained.concat _, ?_, ?_⟩
  · intro grant hgrant
    obtain hgrant | hgrant := List.mem_append.mp hgrant
    · exact h.changed grant hgrant
    · obtain rfl := List.mem_singleton.mp hgrant
      exact buildOperations_changed hlib _ _
  -- the operation behind the moves makes the grant one for the pointer
  · have hgrant : Grant.isPointer
        ⟨context.database, buildOperations lib (moves ++ [operation]) context.database⟩ = true := by
      rw [Grant.isPointer, List.any_eq_true]
      exact ⟨operation, List.mem_append_right _ (List.mem_singleton_self _), hpointer⟩
    change List.Forall₂ _ ((context.granted ++ [_]).filter _) _
    rw [List.filter_append, List.filter_singleton, hgrant]
    refine List.rel_append h.applied (List.Forall₂.cons ?_ .nil)
    exact ⟨rfl, rfl, moves, rfl, hmoves, hlast⟩

/-! ### Sending -/

/-- **Sending reliably.** The call is waiting and no slot has been free, or it has got one. -/
theorem sendReliably_cases (build : Db → Built Db ε) (hopen : .closed ∉ context.answers) :
    (sendReliably (trySendWith build) context = (.waiting, { context with answers := [] }) ∧
      .free ∉ context.answers) ∨
    ∃ answers, sendReliably (trySendWith build) context = (.ok (), context.grant build answers) ∧
      .closed ∉ answers ∧ context.answers.count .free = answers.count .free + 1 := by
  obtain ⟨answers, granted, database, pending⟩ := context
  change (sendReliablyFor _ (answers.length + 1) _ = _ ∧ _) ∨
    ∃ answers', sendReliablyFor _ (answers.length + 1) _ = _ ∧ _
  -- each answer that is not a slot is followed by one more attempt
  induction answers with
  | nil => exact .inl ⟨rfl, List.not_mem_nil⟩
  | cons answer answers ih =>
    obtain ⟨hanswer, hrest⟩ := List.ne_and_not_mem_of_not_mem_cons hopen
    cases answer with
    | free => exact .inr ⟨answers, rfl, hrest, by simp⟩
    | full =>
      obtain ⟨hwaiting, hfree⟩ | ⟨answers', hsent, hopen', hcount⟩ := ih hrest
      · exact .inl ⟨hwaiting, by simpa using hfree⟩
      · exact .inr ⟨answers', hsent, hopen', by simpa using hcount⟩
    | closed => exact absurd rfl hanswer

/-- The last move is in the slot for a move that was given up, or the mouse is there. -/
def InStep (lib : InputDatabase Db ε) (last : Option MousePosition)
    (context : RdpInputContext Db ε) : Prop :=
  context.pendingMousePosition = last ∨
    context.pendingMousePosition = none ∧
      ∀ position, last = some position → lib.mousePosition context.database = position

/-- A call that is to serve some more operations, after which the last move is known. -/
structure Served {α : Type} (lib : InputDatabase Db ε) (first : Db)
    (expected : List (Operation × Option MousePosition))
    (next : Option MousePosition × List (Operation × Option MousePosition))
    (result : Outcome α × RdpInputContext Db ε) : Prop where
  waiting : result.1 = .waiting → Carries lib first expected result.2
  done : result.1 ≠ .waiting → Carries lib first (expected ++ next.2) result.2 ∧
    InStep lib next.1 result.2 ∧ .closed ∉ result.2.answers

variable {last : Option MousePosition}

/-- A call that does nothing. -/
theorem Served.of_done {α : Type} (h : Carries lib first expected context)
    (hstep : InStep lib last context) (hopen : .closed ∉ context.answers) {outcome : Outcome α} :
    Served lib first expected (last, []) (outcome, context) := by
  refine ⟨fun _ => h, fun _ => ⟨?_, hstep, hopen⟩⟩
  rw [List.append_nil]
  exact h

theorem Served.thenContinue {next : Option MousePosition × List (Operation × Option MousePosition)}
    {result : Outcome Unit × RdpInputContext Db ε} (h : Served lib first expected next result) :
    Served lib first expected next (thenContinue result) := by
  obtain ⟨outcome, context⟩ := result
  cases outcome with
  | ok value => exact ⟨fun hwaiting => absurd hwaiting (by simp [Input.thenContinue]),
      fun _ => h.done (by simp)⟩
  | error message => exact ⟨fun hwaiting => absurd hwaiting (by simp [Input.thenContinue]),
      fun _ => h.done (by simp)⟩
  | waiting => exact ⟨fun _ => h.waiting rfl, fun hdone => absurd rfl hdone⟩

/-- Something that is not a pointer operation and leaves the mouse where it is. -/
theorem Served.send_other (h : Carries lib first expected context)
    (hstep : InStep lib last context) (hopen : .closed ∉ context.answers)
    {build : Db → Built Db ε}
    (hchanged : ∀ database, (build database).database ≠ database →
      ∃ events, events ≠ [] ∧ (build database).event = some (.fastPath events))
    (hother : ∀ database, ∀ operation ∈ (build database).operations, operation.isPointer = false)
    (hstays : ∀ database, lib.mousePosition (build database).database = lib.mousePosition database) :
    Served lib first expected (last, []) (sendReliably (trySendWith build) context) := by
  obtain ⟨hwaiting, -⟩ | ⟨answers, hsent, hopen', -⟩ := sendReliably_cases build hopen
  · rw [hwaiting]
    exact ⟨fun _ => h.congr rfl rfl, fun hdone => absurd rfl hdone⟩
  · rw [hsent]
    refine Served.of_done (h.grant_other build (hchanged _) (hother _) answers) ?_ hopen'
    obtain hpending | ⟨hnone, hposition⟩ := hstep
    · exact .inl hpending
    · refine .inr ⟨hnone, ?_⟩
      intro position hlast
      exact (hstays context.database).trans (hposition position hlast)

/-- Operations of the keyboard. -/
theorem Served.sendOperations (hlib : lib.Lawful) (h : Carries lib first expected context)
    (hstep : InStep lib last context) (hopen : .closed ∉ context.answers)
    (operations : List Operation)
    (hother : ∀ operation ∈ operations, operation.isPointer = false ∧
      ∀ position, operation ≠ .mouseMove position) :
    Served lib first expected (last, []) (sendOperations lib operations context) := by
  refine Served.send_other h hstep hopen ?_ ?_ ?_
  · exact buildOperations_changed hlib operations
  · exact fun _ operation hoperation => (hother operation hoperation).1
  · exact fun _ => apply_stays hlib fun operation hoperation => (hother operation hoperation).2

theorem Served.sendText (hlib : lib.Lawful) (text : List Char)
    (h : Carries lib first expected context) (hstep : InStep lib last context)
    (hopen : .closed ∉ context.answers) :
    Served lib first expected (last, []) (sendText lib text context) := by
  induction text generalizing context with
  | nil => exact Served.of_done h hstep hopen
  | cons character text ih =>
    have hserved := Served.sendOperations hlib h hstep hopen
      [.unicodeKeyPressed character, .unicodeKeyReleased character] (by simp [Operation.isPointer])
    rw [Input.sendText]
    split
    · next context' hsent =>
      rw [hsent] at hserved
      obtain ⟨hcarries, hstep', hopen'⟩ := hserved.done (by simp)
      rw [List.append_nil] at hcarries
      exact ih hcarries hstep' hopen'
    · exact hserved

/-- A button or wheel operation, after the move that was given up. -/
theorem Served.sendPointerOperation (hlib : lib.Lawful) (h : Carries lib first expected context)
    (hstep : InStep lib last context) (hopen : .closed ∉ context.answers) {operation : Operation}
    (hpointer : operation.isPointer = true) :
    Served lib first expected (last, [(operation, last)])
      (sendPointerOperation lib operation context) := by
  have hstays : ∀ position, operation ≠ .mouseMove position := by
    rintro position rfl
    exact absurd hpointer (by simp [Operation.isPointer])
  unfold Input.sendPointerOperation
  split
  · next position hpending =>
    -- the slot holds the last move
    obtain rfl : last = some position := by
      obtain hlast | ⟨hnone, -⟩ := hstep
      · rw [← hlast, hpending]
      · rw [hpending] at hnone
        exact absurd hnone (by simp)
    obtain ⟨hwaiting, -⟩ | ⟨answers, hsent, hopen', -⟩ :=
      sendReliably_cases (buildOperations lib [.mouseMove position, operation]) hopen
    · change sendReliably (trySendOperations lib _) _ = _ at hwaiting
      rw [hwaiting]
      exact ⟨fun _ => h.congr rfl rfl, fun hdone => absurd rfl hdone⟩
    · change sendReliably (trySendOperations lib _) _ = _ at hsent
      rw [hsent]
      have hthere : ∀ position', some position = some position' →
          lib.mousePosition (lib.apply context.database [.mouseMove position]).1 = position' := by
        intro position' hsome
        rw [← Option.some.inj hsome]
        exact hlib.moves context.database position
      have hmoved := h.grant_pointer hlib [.mouseMove position] (by simp [Operation.isPointer])
        hpointer hthere answers
      refine ⟨fun hwaiting => absurd hwaiting (by simp), fun _ => ⟨hmoved.congr rfl rfl, ?_, hopen'⟩⟩
      refine .inr ⟨rfl, fun _ hsome => ?_⟩
      rw [← Option.some.inj hsome]
      change lib.mousePosition (lib.perform (lib.perform _ _).1 operation).1 = position
      rw [hlib.stays _ operation hstays]
      exact hlib.moves context.database position
  · next hpending =>
    have hposition : ∀ position, last = some position →
        lib.mousePosition context.database = position := by
      obtain hlast | ⟨-, hposition⟩ := hstep
      · intro position hsome
        rw [← hlast, hpending] at hsome
        exact absurd hsome (by simp)
      · exact hposition
    obtain ⟨hwaiting, -⟩ | ⟨answers, hsent, hopen', -⟩ :=
      sendReliably_cases (buildOperations lib [operation]) hopen
    · change Served _ _ _ _ (sendReliably (trySendWith _) context)
      rw [hwaiting]
      exact ⟨fun _ => h.congr rfl rfl, fun hdone => absurd rfl hdone⟩
    · change Served _ _ _ _ (sendReliably (trySendWith _) context)
      rw [hsent]
      have happlied := h.grant_pointer hlib [] (by simp) hpointer hposition answers
      refine ⟨fun hwaiting => absurd hwaiting (by simp), fun _ => ⟨happlied, ?_, hopen'⟩⟩
      refine .inr ⟨hpending, fun position hsome => ?_⟩
      change lib.mousePosition (lib.perform _ operation).1 = position
      rw [hlib.stays _ operation hstays]
      exact hposition position hsome

/-- A move: it is given up when the channel is full, and then it is in the slot. -/
theorem Served.sendMouseMove (hlib : lib.Lawful) (h : Carries lib first expected context)
    (hopen : .closed ∉ context.answers) (position : MousePosition) :
    Served lib first expected (some position, []) (sendMouseMove lib position context) := by
  obtain ⟨answers, granted, database, pending⟩ := context
  cases answers with
  | nil => exact ⟨fun _ => h.congr rfl rfl, fun hdone => absurd rfl hdone⟩
  | cons answer answers =>
    obtain ⟨hanswer, hrest⟩ := List.ne_and_not_mem_of_not_mem_cons hopen
    cases answer with
    | free =>
      have hmoved := h.grant_other (buildOperations lib [.mouseMove position])
        (buildOperations_changed hlib _ _) (by simp [buildOperations, Operation.isPointer]) answers
      refine ⟨fun hwaiting => absurd hwaiting (by simp [Input.sendMouseMove, trySendOperations,
        trySendWith]), fun _ => ⟨?_, .inr ⟨rfl, ?_⟩, hrest⟩⟩
      · rw [List.append_nil]
        exact hmoved.congr rfl rfl
      · intro position' hsome
        rw [← Option.some.inj hsome]
        exact hlib.moves database position
    -- the position waits, and is the last one the next button or wheel has to bring along
    | full =>
      refine ⟨fun _ => h.congr rfl rfl, fun _ => ⟨?_, .inl rfl, hrest⟩⟩
      rw [List.append_nil]
      exact h.congr rfl rfl
    | closed => exact absurd rfl hanswer

/-- **One request.** Its pointer operation, if it is one, is served at the last move. -/
theorem Served.applyInputRequest (hlib : lib.Lawful) (h : Carries lib first expected context)
    (hstep : InStep lib last context) (hopen : .closed ∉ context.answers)
    (request : HelperRequest) (clipboard : Except String Unit) :
    Served lib first expected (moment last request)
      (applyInputRequest lib request clipboard context) := by
  cases request with
  | connect => exact Served.of_done h hstep hopen
  -- a position that waited is dropped, for it was one of the old size
  | resize width height scaleFactor =>
    have hcleared : Carries lib first expected { context with pendingMousePosition := none } :=
      h.congr rfl rfl
    refine (Served.send_other hcleared (.inl rfl) hopen ?_ ?_ ?_).thenContinue
    · exact fun _ hne => absurd rfl hne
    · exact fun _ _ hmem => absurd hmem List.not_mem_nil
    · exact fun _ => rfl
  | mouseMove x y => exact (Served.sendMouseMove hlib h hopen ⟨x, y⟩).thenContinue
  | mouseButton button pressed =>
    refine (Served.sendPointerOperation hlib h hstep hopen ?_).thenContinue
    cases pressed <;> rfl
  | wheel vertical units =>
    exact (Served.sendPointerOperation hlib h hstep hopen rfl).thenContinue
  | key code extended pressed =>
    unfold Input.applyInputRequest
    simp only
    split
    · next operation hoperation =>
      refine (Served.sendOperations hlib h hstep hopen [operation] ?_).thenContinue
      -- a key is no operation of the pointer
      unfold keyOperation at hoperation
      split at hoperation
      · exact absurd hoperation (by simp)
      · cases pressed <;> simp [← Except.ok.inj hoperation, Operation.isPointer]
    · exact Served.of_done h hstep hopen
  | text text => exact (Served.sendText hlib text.toList h hstep hopen).thenContinue
  | clipboardText text =>
    unfold Input.applyInputRequest
    simp only
    split <;> exact Served.of_done h hstep hopen
  | clipboardFiles transferId paths => exact Served.of_done h hstep hopen
  | cancelClipboardTransfer transferId => exact Served.of_done h hstep hopen
  | close => exact Served.of_done h hstep hopen

/-! ### Waiting -/

/-- The number of slots a request may need. -/
def cost : HelperRequest → ℕ
  | .resize .. | .mouseMove .. | .mouseButton .. | .wheel .. | .key .. => 1
  | .text text => text.toList.length
  | _ => 0

/-- A call that needs so many free answers at most, and is waiting only for want of them. -/
structure Spends {α : Type} (slots : ℕ) (context : RdpInputContext Db ε)
    (result : Outcome α × RdpInputContext Db ε) : Prop where
  waiting : result.1 = .waiting → context.answers.count .free < slots
  done : result.1 ≠ .waiting →
    context.answers.count .free ≤ result.2.answers.count .free + slots

theorem Spends.thenContinue {slots : ℕ} {result : Outcome Unit × RdpInputContext Db ε}
    (h : Spends slots context result) : Spends slots context (thenContinue result) := by
  obtain ⟨outcome, context'⟩ := result
  cases outcome with
  | ok value => exact ⟨fun hwaiting => absurd hwaiting (by simp [Input.thenContinue]),
      fun _ => h.done (by simp)⟩
  | error message => exact ⟨fun hwaiting => absurd hwaiting (by simp [Input.thenContinue]),
      fun _ => h.done (by simp)⟩
  | waiting => exact ⟨fun _ => h.waiting rfl, fun hdone => absurd rfl hdone⟩

theorem Spends.of_done {α : Type} {outcome : Outcome α} (hdone : outcome ≠ .waiting) (slots : ℕ) :
    Spends slots context (outcome, context) :=
  ⟨fun hwaiting => absurd hwaiting hdone, fun _ => Nat.le_add_right _ _⟩

theorem spends_sendReliably (build : Db → Built Db ε) (hopen : .closed ∉ context.answers) :
    Spends 1 context (sendReliably (trySendWith build) context) := by
  obtain ⟨hwaiting, hfree⟩ | ⟨answers, hsent, -, hcount⟩ := sendReliably_cases build hopen
  · rw [hwaiting]
    refine ⟨fun _ => ?_, fun hdone => absurd rfl hdone⟩
    rw [List.count_eq_zero_of_not_mem hfree]
    exact Nat.zero_lt_one
  · rw [hsent]
    exact ⟨fun hwaiting => absurd hwaiting (by simp), fun _ => hcount.le⟩

theorem spends_sendText (text : List Char) (hopen : .closed ∉ context.answers) :
    Spends text.length context (sendText lib text context) := by
  induction text generalizing context with
  | nil => exact Spends.of_done (by simp) 0
  | cons character text ih =>
    rw [Input.sendText]
    -- every character takes one free slot
    obtain ⟨hwaiting, hfree⟩ | ⟨answers, hsent, hopen', hcount⟩ := sendReliably_cases
      (buildOperations lib [.unicodeKeyPressed character, .unicodeKeyReleased character]) hopen
    · change sendOperations lib _ _ = _ at hwaiting
      rw [hwaiting]
      refine ⟨fun _ => ?_, fun hdone => absurd rfl hdone⟩
      rw [List.count_eq_zero_of_not_mem hfree]
      exact Nat.zero_lt_succ _
    · change sendOperations lib _ _ = _ at hsent
      rw [hsent]
      change Spends _ _ (sendText lib text _)
      obtain ⟨hwaiting, hdone⟩ := @ih (context.grant _ answers) hopen'
      change _ → answers.count Answer.free < text.length at hwaiting
      change _ → answers.count Answer.free ≤ _ at hdone
      rw [List.length_cons]
      refine ⟨fun h => ?_, fun h => ?_⟩
      · have := hwaiting h
        omega
      · have := hdone h
        omega

theorem spends_sendPointerOperation (operation : Operation) (hopen : .closed ∉ context.answers) :
    Spends 1 context (sendPointerOperation lib operation context) := by
  unfold sendPointerOperation
  split
  · next position _ =>
    have hspends := spends_sendReliably
      (buildOperations lib [.mouseMove position, operation]) hopen
    split
    · next hsent =>
      exact ⟨fun hwaiting => absurd hwaiting (by simp), fun _ => by
        have hdone := hspends.done
        change (sendReliably (trySendWith _) _) = _ at hsent
        rw [hsent] at hdone
        exact hdone (by simp)⟩
    · exact hspends
  · exact spends_sendReliably _ hopen

theorem spends_applyInputRequest (request : HelperRequest) (clipboard : Except String Unit)
    (hopen : .closed ∉ context.answers) :
    Spends (cost request) context (applyInputRequest lib request clipboard context) := by
  cases request with
  | resize width height scaleFactor =>
    refine Spends.thenContinue ?_
    obtain ⟨hwaiting, hdone⟩ := @spends_sendReliably _ _
      { context with pendingMousePosition := none }
      (fun database => ⟨[], database, some (.resize width height scaleFactor)⟩) hopen
    exact ⟨hwaiting, hdone⟩
  -- a move takes a slot or none, and never waits
  | mouseMove x y =>
    refine Spends.thenContinue ?_
    obtain ⟨answers, granted, database, pending⟩ := context
    cases answers with
    | nil => exact ⟨fun _ => by simp [cost], fun hdone => absurd rfl hdone⟩
    | cons answer answers =>
      cases answer with
      | free => exact ⟨fun hwaiting => absurd hwaiting (by simp [sendMouseMove, trySendOperations,
          trySendWith]), fun _ => by simp [sendMouseMove, trySendOperations, trySendWith, cost,
            RdpInputContext.grant]⟩
      | full => exact ⟨fun hwaiting => absurd hwaiting (by simp [sendMouseMove, trySendOperations,
          trySendWith]), fun _ => by simp [sendMouseMove, trySendOperations, trySendWith, cost]⟩
      | closed => exact absurd List.mem_cons_self hopen
  | mouseButton button pressed => exact (spends_sendPointerOperation _ hopen).thenContinue
  | wheel vertical units => exact (spends_sendPointerOperation _ hopen).thenContinue
  | key code extended pressed =>
    unfold applyInputRequest
    simp only
    split
    · exact (spends_sendReliably _ hopen).thenContinue
    · exact Spends.of_done (by simp) _
  | text text => exact (spends_sendText text.toList hopen).thenContinue
  | clipboardText text =>
    unfold applyInputRequest
    simp only
    split <;> exact Spends.of_done (by simp) _
  | _ => exact Spends.of_done (by simp) _

/-! ### Runs -/

/-- What holds after any number of requests. -/
structure Tracks (lib : InputDatabase Db ε) (database : Db) (answers : List Answer)
    (calls : List (HelperRequest × Except String Unit)) (handled : List HelperRequest)
    (reader : Reader Db ε) : Prop where
  carries : Carries lib database (pointerMoments handled) reader.context
  handled_prefix : handled <+: calls.map Prod.fst
  reading : reader.waiting = false → handled = calls.map Prod.fst ∧
    InStep lib (lastMove handled) reader.context ∧ .closed ∉ reader.context.answers ∧
    answers.count .free ≤ reader.context.answers.count .free
      + (calls.map fun call => cost call.1).sum
  starved : reader.waiting = true → answers.count .free < (calls.map fun call => cost call.1).sum

theorem Tracks.initial (database : Db) {answers : List Answer} (hopen : .closed ∉ answers) :
    Tracks lib database answers [] [] (Reader.initial database answers) where
  carries := ⟨rfl, fun _ hgrant => absurd hgrant List.not_mem_nil, .nil⟩
  handled_prefix := List.prefix_rfl
  reading := fun _ => ⟨rfl, .inl rfl, hopen, Nat.le_refl _⟩
  starved := fun hwaiting => absurd hwaiting (by simp [Reader.initial])

/-- **One call.** Whatever it sends, the books still tell what the server has seen. -/
theorem Tracks.step (hlib : lib.Lawful) {database : Db} {answers : List Answer}
    {calls : List (HelperRequest × Except String Unit)} {handled : List HelperRequest}
    {reader : Reader Db ε} (h : Tracks lib database answers calls handled reader)
    (call : HelperRequest × Except String Unit) :
    Tracks lib database answers (calls ++ [call]) (handled ++ (reader.step lib call).2)
      (reader.step lib call).1 := by
  have hsum : ((calls ++ [call]).map fun call => cost call.1).sum
      = (calls.map fun call => cost call.1).sum + cost call.1 := by simp
  have hmap : (calls ++ [call]).map Prod.fst = calls.map Prod.fst ++ [call.1] := by simp
  -- a reader that waits takes no more requests
  by_cases hwaiting : reader.waiting = true
  · rw [Reader.step, if_pos hwaiting, List.append_nil]
    refine ⟨h.carries, ?_, fun hnot => absurd (hwaiting.symm.trans hnot) (by simp), fun _ => ?_⟩
    · rw [hmap]
      exact h.handled_prefix.trans (List.prefix_append _ _)
    · rw [hsum]
      exact Nat.lt_add_right _ (h.starved hwaiting)
  · have hreading := Bool.not_eq_true _ ▸ hwaiting
    obtain ⟨hall, hstep, hopen, hcount⟩ := h.reading hreading
    have hserved := Served.applyInputRequest hlib h.carries hstep hopen call.1 call.2
    -- what the request spends comes off the free slots that are left
    have hspends := @spends_applyInputRequest _ _ lib _ call.1 call.2 hopen
    rw [Reader.step, if_neg hwaiting]
    split
    · next context hresult =>
      rw [hresult] at hserved hspends
      have hfew := hspends.waiting rfl
      refine ⟨?_, ?_, fun hnot => absurd hnot (by simp), fun _ => ?_⟩
      · rw [List.append_nil]
        exact hserved.waiting rfl
      · rw [hmap, List.append_nil]
        exact h.handled_prefix.trans (List.prefix_append _ _)
      · rw [hsum]
        omega
    · next outcome context hnot hresult =>
      rw [hresult] at hserved hspends
      obtain ⟨hcarries, hstep', hopen'⟩ := hserved.done hnot
      have hspent := hspends.done hnot
      refine ⟨?_, ?_, fun _ => ⟨?_, ?_, hopen', ?_⟩, fun hwaits => absurd hwaits (by simp)⟩
      · rw [pointerMoments_concat]
        exact hcarries
      · rw [hmap, hall]
      · rw [hmap, hall]
      · rw [lastMove_concat]
        exact hstep'
      · rw [hsum]
        change _ ≤ context.answers.count Answer.free + _
        change _ ≤ context.answers.count Answer.free + _ at hspent
        omega

/-- Whatever the channel answers, every change of the database comes with an event on the channel;
the pointer operations that are requested are applied once each and in order, at the last move since
the last resize; and every request is handled when the channel has slots for all of them. -/
theorem pointer_input_applied (lib : InputDatabase Db ε) (hlib : lib.Lawful) (database : Db)
    (answers : List Answer) (hopen : .closed ∉ answers)
    (calls : List (HelperRequest × Except String Unit)) :
    let run := Reader.run lib database answers calls
    Chained database run.1.context.granted run.1.context.database ∧
    (∀ grant ∈ run.1.context.granted, grant.built.database ≠ grant.before →
      ∃ events, events ≠ [] ∧ grant.built.event = some (.fastPath events)) ∧
    List.Forall₂ (Applied lib) (run.1.context.granted.filter Grant.isPointer)
      (pointerMoments run.2) ∧
    run.2 <+: calls.map Prod.fst ∧
    ((calls.map fun call => cost call.1).sum ≤ answers.count .free →
      run.2 = calls.map Prod.fst) := by
  intro run
  have h : Tracks lib database answers calls run.2 run.1 :=
    Machine.run_history (P := fun _ => True) (fun _ _ _ => trivial)
      (fun _ _ _ call htracks _ => htracks.step hlib call) (Tracks.initial database hopen) trivial
  refine ⟨h.carries.chained, h.carries.changed, h.carries.applied, h.handled_prefix, ?_⟩
  intro henough
  by_cases hwaiting : run.1.waiting = true
  · exact absurd (h.starved hwaiting) (Nat.not_lt.mpr henough)
  · exact (h.reading (Bool.not_eq_true _ ▸ hwaiting)).1

/-! ### A database -/

/-- What a database of held inputs reports, with the position of the mouse at the time. -/
inductive HeldEvent where
  | move (position : MousePosition)
  | button (button : MouseButton) (pressed : Bool) (position : MousePosition)
  | wheel (vertical : Bool) (units : Int16) (position : MousePosition)
  | key (scancode : Scancode) (pressed : Bool)
  | character (character : Char) (pressed : Bool)
  deriving DecidableEq, Repr

/-- The buttons, keys and characters that are held down, and the position of the mouse. -/
structure Held where
  buttons : List MouseButton
  keys : List Scancode
  characters : List Char
  position : MousePosition
  deriving DecidableEq, Repr

/-- Nothing is held down. -/
def Held.new : Held := ⟨[], [], [], ⟨0, 0⟩⟩

/-- A button is pressed or released once, a key that is held down is released before it is pressed
again, and a move to where the mouse is does nothing. -/
def Held.perform (held : Held) : Operation → Held × List HeldEvent
  | .mouseButtonPressed button =>
    if button ∈ held.buttons then (held, [])
    else ({ held with buttons := button :: held.buttons }, [.button button true held.position])
  | .mouseButtonReleased button =>
    if button ∈ held.buttons then
      ({ held with buttons := held.buttons.filter (· ≠ button) },
        [.button button false held.position])
    else (held, [])
  | .mouseMove position =>
    if position = held.position then (held, [])
    else ({ held with position := position }, [.move position])
  | .wheelRotations vertical units => (held, [.wheel vertical units held.position])
  | .keyPressed scancode =>
    if scancode ∈ held.keys then (held, [.key scancode false, .key scancode true])
    else ({ held with keys := scancode :: held.keys }, [.key scancode true])
  | .keyReleased scancode =>
    if scancode ∈ held.keys then
      ({ held with keys := held.keys.filter (· ≠ scancode) }, [.key scancode false])
    else (held, [])
  | .unicodeKeyPressed character =>
    if character ∈ held.characters then
      (held, [.character character false, .character character true])
    else ({ held with characters := character :: held.characters }, [.character character true])
  | .unicodeKeyReleased character =>
    if character ∈ held.characters then
      ({ held with characters := held.characters.filter (· ≠ character) },
        [.character character false])
    else (held, [])

def heldInputs : InputDatabase Held HeldEvent := ⟨Held.perform, Held.position⟩

theorem heldInputs_lawful : heldInputs.Lawful where
  moves held position := by
    change (if position = held.position then _ else _ : Held × List HeldEvent).1.position = position
    split
    · next hsame => exact hsame.symm
    · rfl
  stays held operation hnot := by
    cases operation with
    | mouseMove position => exact absurd rfl (hnot position)
    | wheelRotations vertical units => rfl
    | _ =>
      simp only [heldInputs, Held.perform]
      split <;> rfl
  silent held operation hsilent := by
    cases operation with
    | wheelRotations vertical units => rfl
    | _ =>
      simp only [heldInputs, Held.perform] at hsilent ⊢
      split
      all_goals first | rfl | simp_all

/-- Two moves are given up, and the click lands where the second one goes. -/
theorem pointer_input_applied_click :
    let calls := [(.mouseMove 640 480, .ok ()), (.mouseMove 700 500, .ok ()),
      (.mouseButton .left true, .ok ())]
    let run := Reader.run heldInputs .new [.full, .full, .full, .free] calls
    run.1.context.queue
      = [.fastPath [.move ⟨700, 500⟩, .button .left true ⟨700, 500⟩]] ∧
    List.Forall₂ (Applied heldInputs) (run.1.context.granted.filter Grant.isPointer)
      (pointerMoments run.2) := by
  intro calls run
  refine ⟨by decide, ?_⟩
  exact (pointer_input_applied heldInputs heldInputs_lawful .new [.full, .full, .full, .free]
    (by decide) calls).2.2.1

/-- A button that is pressed twice: both requests are handled, and one event is on the channel. -/
theorem pressed_button_not_queued :
    let calls := [(.mouseButton .left true, .ok ()), (.mouseButton .left true, .ok ())]
    let run := Reader.run heldInputs .new [.free, .free] calls
    run.2 = calls.map Prod.fst ∧ (pointerMoments run.2).length = 2 ∧
      run.1.context.queue = [.fastPath [.button .left true ⟨0, 0⟩]] := by
  decide

end Input
end Rdp
end Navop
