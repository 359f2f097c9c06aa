import EventRecorder.PersistentCache.Opening
import EventRecorder.Theory.Run

/-!
# The boot IDs of several providers

Each provider has a path and room for one ID, but whether an ID has been read is a static variable
of the function, which all providers of the process share.
-/

namespace EventRecorder

open Theory

/-! ## 1. Reading the file -/

/-- `FILE_LENGTH`: 36 characters and the newline. -/
def bootIdFileLength : Nat := 37

/-- What `read_boot_id` makes of the contents of a file, if there is one. -/
def readBootId (contents : Option Bytes) : Option Uuid :=
  contents.bind fun contents =>
    -- `strlen` stops at a null byte
    if 0 ∈ contents then none
    else if contents.length ≠ bootIdFileLength then none
    else Uuid.parse ((contents.map fun byte => Char.ofNat byte.toNat).rdropWhile asciiIsSpace)

/-! ## 2. The providers of a process -/

/-- A call on a provider, while the files have some contents. -/
structure BootIdCall (ι π : Type*) where
  provider : ι
  files : π → Option Bytes

/-- What a call has read and answered, beside the contents of the provider's file at that time. -/
structure BootIdRecord (ι : Type*) where
  provider : ι
  contents : Option Bytes
  /-- The ID that `read_boot_id` has parsed, if it was called at all. -/
  read : Option Uuid
  answer : Option Uuid
  deriving DecidableEq

/-- The providers, the static variable and the calls so far. -/
structure BootIdProcess (ι : Type*) where
  providers : ι → EmerBootIdProvider
  idIsValid : Bool
  records : List (BootIdRecord ι)

section Process

variable {ι π : Type*} [DecidableEq ι]

namespace BootIdProcess

/-- No provider has been asked yet. -/
def start : BootIdProcess ι := ⟨fun _ => ⟨Uuid.null⟩, false, []⟩

/-- `emer_boot_id_provider_get_id` on one of the providers. -/
def getId (path : ι → π) (self : BootIdProcess ι) (call : BootIdCall ι π) : BootIdProcess ι :=
  let contents := call.files (path call.provider)
  let (answer, provider, idIsValid) :=
    (self.providers call.provider).getId self.idIsValid (readBootId contents)
  { providers := Function.update self.providers call.provider provider
    idIsValid := idIsValid
    records := self.records ++
      [⟨call.provider, contents, if self.idIsValid then none else readBootId contents, answer⟩] }

/-- The first call on a provider that was answered with an ID. -/
def firstSuccess (provider : ι) (records : List (BootIdRecord ι)) : Option (BootIdRecord ι) :=
  records.find? fun record => record.provider = provider ∧ record.answer.isSome

/-- Whoever answers with an ID has read it from its own file, in its first call that succeeded. -/
def ReportsOwnIds (self : BootIdProcess ι) : Prop :=
  ∀ record ∈ self.records, ∀ id, record.answer = some id →
    ∃ first, firstSuccess record.provider self.records = some first ∧ first.read = some id ∧
      readBootId first.contents = some id

/-- Nobody but this provider has answered with an ID so far. -/
def OnlyAnswerer (self : BootIdProcess ι) (call : BootIdCall ι π) : Prop :=
  ∀ record ∈ self.records, record.answer ≠ none → record.provider = call.provider

/-! ## 3. What one call does -/

/-- The only call that has read an ID is the first one that was answered with one. -/
structure Coherent (process : BootIdProcess ι) : Prop where
  unread : process.idIsValid = false →
    ∀ record ∈ process.records, record.answer = none ∧ record.read = none
  first : process.idIsValid = true → ∃ first ∈ process.records, ∃ id,
    first.answer = some id ∧ first.read = some id ∧ readBootId first.contents = some id ∧
      process.providers first.provider = ⟨id⟩ ∧
      firstSuccess first.provider process.records = some first ∧
      ∀ record ∈ process.records, record.read ≠ none → record = first

variable {process : BootIdProcess ι} {path : ι → π} {call : BootIdCall ι π}

theorem mem_of_firstSuccess {provider : ι} {records : List (BootIdRecord ι)}
    {first : BootIdRecord ι} (h : firstSuccess provider records = some first) :
    first ∈ records ∧ first.provider = provider := by
  have hfound := List.find?_some h
  rw [decide_eq_true_eq] at hfound
  exact ⟨List.mem_of_find?_eq_some h, hfound.1⟩

theorem firstSuccess_append {provider : ι} {records : List (BootIdRecord ι)}
    {first : BootIdRecord ι} (h : firstSuccess provider records = some first)
    (later : List (BootIdRecord ι)) : firstSuccess provider (records ++ later) = some first := by
  rw [firstSuccess] at h
  rw [firstSuccess, List.find?_append, h]
  rfl

/-- Before any call was answered with an ID, the next one that is comes first. -/
theorem firstSuccess_concat {records : List (BootIdRecord ι)}
    (hrecords : ∀ record ∈ records, record.answer = none) {next : BootIdRecord ι}
    (hnext : next.answer ≠ none) :
    firstSuccess next.provider (records ++ [next]) = some next := by
  have hnone : records.find?
      (fun record => record.provider = next.provider ∧ record.answer.isSome) = none := by
    apply List.find?_eq_none.mpr
    intro record hmem
    simp [hrecords record hmem]
  rw [firstSuccess, List.find?_append, hnone, Option.none_or]
  apply List.find?_cons_of_pos
  rw [decide_eq_true_eq]
  exact ⟨rfl, Option.isSome_iff_ne_none.mpr hnext⟩

/-- While no ID has been read, a call reads the provider's own file. -/
theorem getId_of_invalid (hinvalid : process.idIsValid = false) {id : Option Uuid}
    (hread : readBootId (call.files (path call.provider)) = id) :
    (process.getId path call).idIsValid = id.isSome ∧
      (process.getId path call).records = process.records ++
        [⟨call.provider, call.files (path call.provider), id, id⟩] ∧
      ∀ uuid, id = some uuid → (process.getId path call).providers call.provider = ⟨uuid⟩ := by
  unfold getId EmerBootIdProvider.getId
  dsimp only
  rw [hinvalid, hread]
  cases id with
  | none => exact ⟨rfl, rfl, fun _ h => by cases h⟩
  | some uuid =>
    refine ⟨rfl, rfl, fun _ h => ?_⟩
    cases h
    exact Function.update_self _ _ _

/-- Afterwards a call answers with what the provider has. -/
theorem getId_of_valid (hvalid : process.idIsValid = true) :
    process.getId path call =
      { process with
        records := process.records ++
          [⟨call.provider, call.files (path call.provider), none,
            some (process.providers call.provider).id⟩] } := by
  unfold getId EmerBootIdProvider.getId
  rw [hvalid]
  simp

theorem Coherent.getId (h : process.Coherent) (path : ι → π) (call : BootIdCall ι π) :
    (process.getId path call).Coherent := by
  cases hvalid : process.idIsValid with
  | false =>
    have hunread := h.unread hvalid
    cases hread : readBootId (call.files (path call.provider)) with
    | none =>
      obtain ⟨hflag, hrecords, -⟩ := getId_of_invalid hvalid hread
      constructor
      · intro _ record hmem
        rw [hrecords] at hmem
        cases List.mem_append.mp hmem with
        | inl hold => exact hunread record hold
        | inr hnew =>
          rw [List.mem_singleton.mp hnew]
          exact ⟨rfl, rfl⟩
      · intro htrue
        rw [htrue] at hflag
        cases hflag
    | some id =>
      obtain ⟨hflag, hrecords, hprovider⟩ := getId_of_invalid hvalid hread
      constructor
      · intro hfalse
        rw [hfalse] at hflag
        cases hflag
      · intro _
        rw [hrecords]
        refine ⟨_, List.mem_append_right _ (List.mem_singleton_self _), id, rfl, rfl, hread,
          hprovider id rfl, ?_, ?_⟩
        · exact firstSuccess_concat (fun record hmem => (hunread record hmem).1)
            (Option.some_ne_none id)
        · intro record hmem hne
          cases List.mem_append.mp hmem with
          | inl hold => exact absurd (hunread record hold).2 hne
          | inr hnew => exact List.mem_singleton.mp hnew
  | true =>
    obtain ⟨first, hmem, id, hanswer, hread, hfile, hprovider, hfirst, honly⟩ := h.first hvalid
    rw [getId_of_valid hvalid]
    constructor
    · intro hfalse
      rw [hvalid] at hfalse
      cases hfalse
    · intro _
      refine ⟨first, List.mem_append_left _ hmem, id, hanswer, hread, hfile, hprovider,
        firstSuccess_append hfirst _, ?_⟩
      intro record hrecord hne
      cases List.mem_append.mp hrecord with
      | inl hold => exact honly record hold hne
      | inr hnew =>
        rw [List.mem_singleton.mp hnew] at hne
        exact absurd rfl hne

/-- **Step lemma.**  A call keeps the law exactly when nobody else has answered before. -/
theorem reportsOwnIds_getId (h : process.Coherent) (hreports : process.ReportsOwnIds) :
    (process.getId path call).ReportsOwnIds ↔ process.OnlyAnswerer call := by
  cases hvalid : process.idIsValid with
  | false =>
    have hunread := h.unread hvalid
    apply iff_of_true
    · obtain ⟨-, hrecords, -⟩ := @getId_of_invalid _ _ _ process path call hvalid _ rfl
      intro record hmem id hanswer
      rw [hrecords] at hmem ⊢
      cases List.mem_append.mp hmem with
      | inl hold =>
        rw [(hunread record hold).1] at hanswer
        cases hanswer
      | inr hnew =>
        rw [List.mem_singleton.mp hnew] at hanswer ⊢
        refine ⟨_, firstSuccess_concat (fun record hmem => (hunread record hmem).1) ?_, hanswer,
          hanswer⟩
        rw [hanswer]
        exact Option.some_ne_none id
    · intro record hmem hne
      exact absurd (hunread record hmem).1 hne
  | true =>
    obtain ⟨first, hmem, id, hanswer, hread, hfile, hprovider, hfirst, honly⟩ := h.first hvalid
    rw [getId_of_valid hvalid]
    constructor
    · intro hnext
      -- who has answered has read, and only the first one has
      have hown : ∀ record ∈ process.records ++
          [⟨call.provider, call.files (path call.provider), none,
            some (process.providers call.provider).id⟩],
          record.answer ≠ none → record.provider = first.provider := by
        intro record hrecord hne
        obtain ⟨answer, hsome⟩ := Option.ne_none_iff_exists'.mp hne
        obtain ⟨own, hown, hownRead, -⟩ := hnext record hrecord answer hsome
        obtain ⟨hownMem, hownProvider⟩ := mem_of_firstSuccess hown
        rw [← hownProvider]
        cases List.mem_append.mp hownMem with
        | inl hold =>
          rw [honly own hold]
          rw [hownRead]
          exact Option.some_ne_none answer
        | inr hnew =>
          rw [List.mem_singleton.mp hnew] at hownRead
          cases hownRead
      intro record hrecord hne
      rw [hown record (List.mem_append_left _ hrecord) hne]
      exact (hown _ (List.mem_append_right _ (List.mem_singleton_self _))
        (Option.some_ne_none _)).symm
    · intro honlyAnswerer record hrecord answer hsome
      cases List.mem_append.mp hrecord with
      | inl hold =>
        obtain ⟨own, hown, hownRead⟩ := hreports record hold answer hsome
        exact ⟨own, firstSuccess_append hown _, hownRead⟩
      | inr hnew =>
        have hsame : first.provider = call.provider := by
          apply honlyAnswerer first hmem
          rw [hanswer]
          exact Option.some_ne_none id
        rw [List.mem_singleton.mp hnew] at hsome ⊢
        dsimp only at hsome ⊢
        rw [← hsame, hprovider] at hsome
        cases hsome
        rw [← hsame]
        exact ⟨first, firstSuccess_append hfirst _, hread, hfile⟩

end BootIdProcess

/-- **Every provider reports the ID in its own file, throughout a run of calls, exactly when no
provider is asked any more once another one has answered.** -/
theorem reportsOwnIds_iff (path : ι → π) (calls : List (BootIdCall ι π)) :
    Throughout (BootIdProcess.getId path) BootIdProcess.ReportsOwnIds BootIdProcess.start calls ↔
      EachStep (BootIdProcess.getId path) BootIdProcess.OnlyAnswerer BootIdProcess.start
        calls := by
  apply @throughout_iff_eachStep _ _ (BootIdProcess.getId path) (fun _ _ => True)
    BootIdProcess.OnlyAnswerer BootIdProcess.Coherent BootIdProcess.ReportsOwnIds
  · intro process call h _
    exact h.getId path call
  · intro process call h _ hreports
    exact BootIdProcess.reportsOwnIds_getId h hreports
  · constructor
    · exact fun _ record hmem => absurd hmem List.not_mem_nil
    · exact fun h => Bool.noConfusion h
  · exact fun record hmem => absurd hmem List.not_mem_nil
  · exact fun _ _ _ => trivial

end Process

/-- A file with 36 digits and hyphens and a newline. -/
def bootIdFile (digit : UInt8) : Bytes :=
  List.replicate 8 digit ++ 45 :: (List.replicate 4 digit ++ 45 :: (List.replicate 4 digit ++
    45 :: (List.replicate 4 digit ++ 45 :: (List.replicate 12 digit ++ [10]))))

/-- Two providers with well-formed files of their own, asked one after the other. -/
def twoProviders : List (BootIdCall Bool Bool) :=
  [⟨false, fun path => some (bootIdFile (if path then 98 else 97))⟩,
    ⟨true, fun path => some (bootIdFile (if path then 98 else 97))⟩]

/-- The second one answers with the ID of zeros. -/
theorem twoProviders_not_reportOwnIds :
    ¬ Throughout (BootIdProcess.getId fun provider : Bool => provider)
      BootIdProcess.ReportsOwnIds BootIdProcess.start twoProviders := by
  intro h
  obtain ⟨first, hfirst, hread, -⟩ := h.last
    ⟨true, some (bootIdFile 98), none, some Uuid.null⟩ (by decide +kernel) Uuid.null rfl
  have hrecord : BootIdProcess.firstSuccess true
      (run (BootIdProcess.getId fun provider : Bool => provider) BootIdProcess.start
        twoProviders).records =
      some ⟨true, some (bootIdFile 98), none, some Uuid.null⟩ := by decide +kernel
  have hrecord := hrecord.symm.trans hfirst
  cases hrecord
  cases hread

end EventRecorder
