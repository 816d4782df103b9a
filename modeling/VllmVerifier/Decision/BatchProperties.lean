import VllmVerifier.Decision.RuntimeProperties
import VllmVerifier.Python.Loop

/-!
The physical batches of `evaluate_batch`. Its two nested loops end and cut the
sorted entries of each type into runs; the runs hold every question of every
admitted request once, within both limits, and leave no room for the next one.
-/

set_option autoImplicit false

namespace VllmVerifier.Decision.KaiRuntime

open Python Batching

variable {runtime : KaiRuntime}

/-! ## The loops -/

private theorem take_grows {entries : List Entry} {start stop : Nat} {entry : Entry}
    (before : start < stop) (located : entries[stop]? = some entry) :
    (entries.drop start).take (stop + 1 - start) =
      (entries.drop start).take (stop - start) ++ [entry] := by
  have shifted : (entries.drop start)[stop - start]? = some entry := by
    rw [List.getElem?_drop, ← located]
    congr 1
    omega
  rw [show stop + 1 - start = stop - start + 1 by omega, List.take_add_one, shifted]
  rfl

private theorem drop_cons {entries : List Entry} {stop : Nat} {entry : Entry}
    (located : entries[stop]? = some entry) :
    entries.drop stop = entry :: entries.drop (stop + 1) := by
  obtain ⟨inside, rfl⟩ := List.getElem?_eq_some_iff.mp located
  exact List.drop_eq_getElem_cons inside

/-- The inner loop ends where the first run of what is left ends. -/
theorem batchEnd_cut {entries : List Entry} {start fuel stop : Nat} (before : start < stop)
    (inside : stop ≤ entries.length) (enough : entries.length - stop < fuel) :
    ∃ ended, runtime.batchEnd entries start fuel stop = some ended ∧ stop ≤ ended ∧
      ended ≤ entries.length ∧
        cutFrom runtime.joins ((entries.drop start).take (stop - start)) (entries.drop stop) =
          (entries.drop start).take (ended - start) ::
            cut runtime.joins (entries.drop ended) := by
  induction fuel generalizing stop with
  | zero => exact absurd enough (Nat.not_lt_zero _)
  | succ fuel ih =>
      have size : ((entries.drop start).take (stop - start)).length = stop - start := by
        rw [List.length_take, List.length_drop]
        omega
      unfold batchEnd
      cases located : entries[stop]? with
      | none =>
          have last := List.getElem?_eq_none_iff.mp located
          refine ⟨stop, rfl, Nat.le_refl _, inside, ?_⟩
          rw [List.drop_eq_nil_of_le last]
          rfl
      | some entry =>
          have bound := (List.getElem?_eq_some_iff.mp located).1
          have stays : ¬ (stop - start < runtime.batchSize ∧
              (stop - start + 1) * entry.length ≤ runtime.batchTokens) →
              cutFrom runtime.joins ((entries.drop start).take (stop - start))
                (entries.drop stop) = (entries.drop start).take (stop - start) ::
                  cut runtime.joins (entries.drop stop) := by
            intro full
            rw [drop_cons located, cutFrom, if_neg]
            · rfl
            · simpa [joins, size] using full
          dsimp only
          split
          · split
            · rename_i room heavy
              exact ⟨stop, rfl, Nat.le_refl _, inside,
                stays fun fits => Nat.not_le_of_lt heavy fits.2⟩
            · rename_i room light
              obtain ⟨ended, found, later, within, shape⟩ := ih (Nat.lt_succ_of_lt before) bound
                (by omega)
              refine ⟨ended, found, Nat.le_of_succ_le later, within, ?_⟩
              rw [take_grows before located] at shape
              rw [drop_cons located, cutFrom, if_pos, shape]
              simp [joins, size, room, Nat.le_of_not_lt light]
          · rename_i crowded
            exact ⟨stop, rfl, Nat.le_refl _, inside, stays fun fits => crowded fits.1⟩

theorem batchLoop_cut {entries : List Entry} {fuel start : Nat} (inside : start ≤ entries.length)
    (enough : entries.length - start < fuel) :
    runtime.batchLoop entries fuel start = some (cut runtime.joins (entries.drop start)) := by
  induction fuel generalizing start with
  | zero => exact absurd enough (Nat.not_lt_zero _)
  | succ fuel ih =>
      unfold batchLoop
      split
      · rename_i unfinished
        obtain ⟨ended, found, later, within, shape⟩ :=
          @batchEnd_cut runtime entries start entries.length (start + 1) (Nat.lt_succ_self _)
            unfinished (by omega)
        have first := drop_cons (List.getElem?_eq_getElem unfinished)
        rw [found, Option.bind_eq_bind, Option.bind_some, ih within (by omega),
          Option.bind_eq_bind, Option.bind_some, ← shape, first]
        rw [Nat.add_sub_cancel_left]
        rfl
      · rename_i finished
        rw [List.drop_eq_nil_of_le (Nat.le_of_not_lt finished)]
        rfl

/-- The loops over the entries of a type end, with the runs of the entries. -/
theorem batchLoop_ends (runtime : KaiRuntime) (entries : List Entry) :
    runtime.batchLoop entries (entries.length + 1) 0 = some (cut runtime.joins entries) :=
  batchLoop_cut (Nat.zero_le _) (Nat.lt_succ_self _)

/-! ## The partition -/

variable {F : Type} [LogField F] {requests : List SystemOneRequest}

def kind (entry : Entry) : QuestionType := entry.row.question.type

/-- Physical batches that partition the questions of the admitted requests. -/
structure Partition (runtime : KaiRuntime) (requests : List SystemOneRequest)
    (batches : List (List Entry)) : Prop where
  admitted : ∀ entry ∈ batches.flatten, ∃ request measured,
    requests[entry.requestIndex]? = some request ∧ runtime.measure request = .ok measured ∧
      (entry.questionId, (entry.row, entry.length)) ∈ request.questions.keys.zip measured
  complete : ∀ (index : Nat) request measured, requests[index]? = some request →
    runtime.measure request = .ok measured →
      ((batches.flatten.filter fun entry => entry.requestIndex = index).map
        Entry.questionId).Perm request.questions.keys
  rows : ∀ batch ∈ batches, 1 ≤ batch.length ∧ batch.length ≤ runtime.batchSize
  tokens : ∀ batch ∈ batches, ∀ entry ∈ batch, batch.length * entry.length ≤ runtime.batchTokens
  oneType : ∀ batch ∈ batches, ∃ type, ∀ entry ∈ batch, kind entry = type
  ordered : ∀ type, (piecesOf kind type batches).flatten.Pairwise fun first last =>
    first.length ≤ last.length
  maximal : ∀ type, (piecesOf kind type batches).IsChain fun batch next =>
    ∀ entry ∈ next.head?, runtime.batchSize < batch.length + 1 ∨
      runtime.batchTokens < (batch.length + 1) * entry.length

/-- A collator that refuses a row or counts between 1 and 1024 tokens. -/
structure Measures (runtime : KaiRuntime) : Prop where
  bounded : ∀ row length, runtime.encode row = .ok length → 1 ≤ length ∧ length ≤ 1024
  refuses : runtime.Refuses

/-- The batches that `evaluate_batch` passes to `_run`. -/
def passedBatches (F : Type) [LogField F] (runtime : KaiRuntime)
    (requests : List SystemOneRequest) : List (List Entry) :=
  if admission requests then
    match requests.zipIdx.foldlM runtime.admitRequest (([] : List (Outcome F)), Dict.empty) with
    | .ok (outcomes, pending) =>
        (reached (runtime.run requests) outcomes (runtime.batches pending).zipIdx).map Prod.fst
    | .error _ => []
  else []

def NoBatchFails (F : Type) [LogField F] (runtime : KaiRuntime)
    (requests : List SystemOneRequest) : Prop :=
  ∀ (outcomes : List (Outcome F)) pending,
    requests.zipIdx.foldlM runtime.admitRequest ([], Dict.empty) = .ok (outcomes, pending) →
      ∃ scored, (runtime.batches pending).zipIdx.foldlM (runtime.run requests) outcomes =
        .ok scored

private theorem sorted_sortByLength (entries : List Entry) :
    (sortByLength entries).Pairwise fun first last => first.length ≤ last.length := by
  have total : Std.Total fun left right : Entry => left.length ≤ right.length :=
    ⟨fun left right => Nat.le_total left.length right.length⟩
  have trans : IsTrans Entry fun left right => left.length ≤ right.length :=
    ⟨fun _ _ _ => Nat.le_trans⟩
  exact List.pairwise_insertionSort _ entries

theorem cut_limits {entries : List Entry}
    (sorted : entries.Pairwise fun first last => first.length ≤ last.length)
    (bounded : ∀ entry ∈ entries, entry.length ≤ 1024) :
    ∀ batch ∈ cut runtime.joins entries, (1 ≤ batch.length ∧ batch.length ≤ runtime.batchSize) ∧
      ∀ entry ∈ batch, batch.length * entry.length ≤ runtime.batchTokens := by
  refine forall_cut (fun entry member => ?_) fun current item inside known joined => ?_
  · refine ⟨⟨Nat.le_refl _, runtime.sizeRange⟩, fun other single => ?_⟩
    rw [List.mem_singleton.mp single, List.length_singleton, Nat.one_mul]
    exact Nat.le_trans (bounded entry member) runtime.tokensRange
  · obtain ⟨room, light⟩ : current.length < runtime.batchSize ∧
        (current.length + 1) * item.length ≤ runtime.batchTokens := by
      simpa [joins] using joined
    have order := sorted.sublist inside
    rw [List.pairwise_append] at order
    rw [List.length_append, List.length_singleton]
    refine ⟨⟨Nat.le_add_left _ _, room⟩, fun entry member => ?_⟩
    have shorter : entry.length ≤ item.length := by
      rcases List.mem_append.mp member with earlier | last
      · exact order.2.2 entry earlier item (List.mem_singleton_self item)
      · exact Nat.le_of_eq (congrArg Entry.length (List.mem_singleton.mp last))
    exact Nat.le_trans (Nat.mul_le_mul_left _ shorter) light

private theorem cut_divides (entries : List Entry) :
    ∀ batch ∈ cut runtime.joins (sortByLength entries), batch ≠ [] ∧ batch ⊆ entries := by
  intro batch member
  refine ⟨cut_ne_nil member, fun entry inside => ?_⟩
  have sorted : (sortByLength entries).Perm entries := List.perm_insertionSort _ entries
  exact sorted.mem_iff.mp ((cut_sublist member).subset inside)

private theorem batches_source {groups : Dict QuestionType (List Entry)} {batch : List Entry}
    (member : batch ∈ runtime.batches groups) :
    ∃ label items, groups.get? label = some items ∧
      batch ∈ cut runtime.joins (sortByLength items) := by
  obtain ⟨items, present, found⟩ := List.mem_flatMap.mp member
  obtain ⟨⟨label, _⟩, stored, rfl⟩ := List.mem_map.mp present
  exact ⟨label, _, Dict.get?_eq_some_iff.mpr stored, found⟩

private theorem mem_flatten_batches {groups : Dict QuestionType (List Entry)}
    {label : QuestionType} {items : List Entry} {entry : Entry}
    (stored : groups.get? label = some items) (inside : entry ∈ sortByLength items) :
    entry ∈ (runtime.batches groups).flatten := by
  rw [← cut_flatten runtime.joins (sortByLength items)] at inside
  obtain ⟨batch, member, within⟩ := List.mem_flatten.mp inside
  have present : items ∈ groups.values :=
    List.mem_map.mpr ⟨_, Dict.get?_eq_some_iff.mp stored, rfl⟩
  exact List.mem_flatten.mpr ⟨batch, List.mem_flatMap.mpr ⟨items, present, member⟩, within⟩

theorem batches_limits {groups : Dict QuestionType (List Entry)}
    (bounded : ∀ entry ∈ (runtime.batches groups).flatten, entry.length ≤ 1024) :
    ∀ batch ∈ runtime.batches groups, (1 ≤ batch.length ∧ batch.length ≤ runtime.batchSize) ∧
      ∀ entry ∈ batch, batch.length * entry.length ≤ runtime.batchTokens := by
  intro batch member
  obtain ⟨label, items, stored, found⟩ := batches_source member
  have short : ∀ entry ∈ sortByLength items, entry.length ≤ 1024 :=
    fun entry inside => bounded entry (mem_flatten_batches stored inside)
  exact cut_limits (sorted_sortByLength items) short batch found

theorem grouped_admitted {entry : Entry}
    (member : entry ∈ requests.zipIdx.flatMap runtime.pushed) :
    ∃ request measured, requests[entry.requestIndex]? = some request ∧
      runtime.measure request = .ok measured ∧
        (entry.questionId, (entry.row, entry.length)) ∈ request.questions.keys.zip measured := by
  obtain ⟨⟨request, index⟩, source, produced⟩ := List.mem_flatMap.mp member
  obtain ⟨same, measured, known, found⟩ := mem_pushed produced
  refine ⟨request, measured, ?_, known, found⟩
  rw [same]
  exact List.mk_mem_zipIdx_iff_getElem?.mp source

theorem grouped_short (measures : runtime.Measures) {entry : Entry}
    (member : entry ∈ requests.zipIdx.flatMap runtime.pushed) : entry.length ≤ 1024 := by
  obtain ⟨request, measured, _, known, found⟩ := grouped_admitted member
  have encoded := (measure_ok known).2 _ (List.of_mem_zip found).2
  exact (measures.bounded entry.row entry.length encoded).2

private theorem full_of_joins {batch : List Entry} {entry : Entry}
    (apart : runtime.joins batch entry = false) :
    runtime.batchSize < batch.length + 1 ∨
      runtime.batchTokens < (batch.length + 1) * entry.length := by
  rw [joins, Bool.and_eq_false_iff, decide_eq_false_iff_not, decide_eq_false_iff_not] at apart
  omega

/-- The batches of groups that hold the entries of the admitted requests. -/
theorem batches_partition_groups (measures : runtime.Measures) :
    Partition runtime requests (runtime.batches
      ((requests.zipIdx.flatMap runtime.pushed).foldl (push kind) Dict.empty)) := by
  generalize groupsShape : (requests.zipIdx.flatMap runtime.pushed).foldl (push kind)
    Dict.empty = groups
  have perm : (runtime.batches groups).flatten.Perm (requests.zipIdx.flatMap runtime.pushed) :=
    groupsShape ▸ batches_perm runtime requests.zipIdx
  have keyed : Keyed kind groups := by
    rw [← groupsShape]
    refine foldl_push_keyed (fun label items found => ?_) _
    cases found
  have pieces : ∀ type, piecesOf kind type (runtime.batches groups) =
      cut runtime.joins (sortByLength ((groups.get? type).getD [])) :=
    fun type => piecesOf_groups cut_divides keyed type
  have limits := @batches_limits runtime groups fun entry member =>
    grouped_short measures (perm.mem_iff.mp member)
  constructor
  · exact fun entry member => grouped_admitted (perm.mem_iff.mp member)
  · intro index request measured found known
    have own := (perm.filter fun entry => entry.requestIndex = index).map Entry.questionId
    rw [filter_pushed runtime found, pushed_of_measured known, entriesOf_questionId known] at own
    exact own
  · exact fun batch member => (limits batch member).1
  · exact fun batch member => (limits batch member).2
  · intro batch member
    obtain ⟨label, items, stored, found⟩ := batches_source member
    exact ⟨label, fun entry inside => keyed label items stored entry
      ((cut_divides items batch found).2 inside)⟩
  · intro type
    rw [pieces, cut_flatten]
    exact sorted_sortByLength _
  · intro type
    rw [pieces]
    exact (isChain_cut runtime.joins _).imp fun batch next ends entry head =>
      full_of_joins (ends entry head)

/-- The loops over physical batches end; and when no batch fails, what they pass
to `_run` partitions the questions of the admitted requests within both limits. -/
theorem passedBatches_partition (measures : runtime.Measures) (admitted : admission requests = true)
    (succeeds : NoBatchFails F runtime requests) :
    (∀ entries, runtime.batchLoop entries (entries.length + 1) 0 =
      some (cut runtime.joins entries)) ∧
      Partition runtime requests (passedBatches F runtime requests) := by
  refine ⟨batchLoop_ends runtime, ?_⟩
  have walked := admit_requests (F := F) measures.refuses requests
  obtain ⟨scored, ran⟩ := succeeds _ _ walked
  unfold passedBatches
  rw [if_pos admitted, walked]
  dsimp only
  rw [reached_of_ok ran, List.zipIdx_map_fst]
  exact batches_partition_groups measures

/-- No batch of readable rows fails, when rows are scored one by one. -/
theorem noBatchFails_of_rowWise {positions : Row → Nat} {reading : Row → List PyFloat}
    (rowWise : runtime.RowWise positions reading) (readable : Readable F runtime reading requests) :
    NoBatchFails F runtime requests := by
  intro outcomes pending walked
  cases walked.symm.trans (admit_requests rowWise.refuses requests)
  have perm := batches_perm runtime requests.zipIdx
  exact ⟨_, run_all rowWise
    (fun entry member => pushed_scorable readable (perm.mem_iff.mp member)) 0⟩

theorem passedBatches_partition_long :
    Partition sampleRuntime [noulRequest (lit "long"), noulRequest (lit "s")]
      (passedBatches ℝ sampleRuntime [noulRequest (lit "long"), noulRequest (lit "s")]) := by
  have measures : sampleRuntime.Measures := by
    refine ⟨fun row length known => ?_, sampleRuntime_rowWise.refuses⟩
    simp only [sampleRuntime, sampleEncode] at known
    split at known
    · cases known
    · cases known
      decide
  exact (passedBatches_partition measures (by decide)
    (noBatchFails_of_rowWise sampleRuntime_rowWise sampleRuntime_readable)).2

end VllmVerifier.Decision.KaiRuntime
