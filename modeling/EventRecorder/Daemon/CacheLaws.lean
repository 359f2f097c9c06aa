import EventRecorder.Daemon.Basic

/-!
# What the daemon relies on of its cache

While its files are intact and nothing fails, the persistent cache is a bounded first-in first-out
queue of events.  An element takes its length prefix beside its cost, and a token is the number of
bytes that the elements read take.
-/

namespace EventRecorder

open Theory

variable {κ ε : Type*}

/-! ## 1. The laws -/

/-- `Contents` are the events in a cache, of which `token` makes tokens.  From the front, `fits` of
the events offered are stored. -/
structure LawfulCache (ops : PersistentCacheOps κ ε) (Contents : κ → List ε → Prop)
    (fits : List ε → List ε → Nat) (token : List ε → Nat) : Prop where
  token_nil : token [] = 0
  unique : ∀ {cache contents contents'}, Contents cache contents → Contents cache contents' →
    contents = contents'
  store : ∀ {cache contents} events, Contents cache contents →
    (ops.store cache events).1 = some (fits contents events) ∧
      Contents (ops.store cache events).2 (contents ++ events.take (fits contents events))
  read : ∀ {cache contents} maxBytes, Contents cache contents →
    ∃ stored, stored <+: contents ∧ (ops.read cache maxBytes).1 = .ok (stored, token stored) ∧
      Contents (ops.read cache maxBytes).2 contents
  hasMore : ∀ {cache stored more}, Contents cache (stored ++ more) →
    (ops.hasMore cache (token stored) = true ↔ more ≠ [])
  remove : ∀ {cache stored more}, Contents cache (stored ++ more) →
    Contents (ops.remove cache (token stored)).2 more
  removeAll : ∀ {cache contents}, Contents cache contents → Contents (ops.removeAll cache).2 []

/-- `Within cache P` says that no event comes out of the cache but with `P`, and `Denotes` which
tokens may be passed to it.  Reads and removals may fail, but no store does: what a failed one has
appended would stay in the write buffer of the circular file, which clearing the cache does not
empty. -/
structure ConfinedCache (ops : PersistentCacheOps κ ε) (Within : κ → (ε → Prop) → Prop)
    (Denotes : κ → Nat → Prop) : Prop where
  mono : ∀ {cache P Q}, Within cache P → (∀ event, P event → Q event) → Within cache Q
  zero : ∀ {cache P}, Within cache P → Denotes cache 0
  storeSucceeds : ∀ {cache P} events, Within cache P → (ops.store cache events).1 ≠ none
  store : ∀ {cache P events}, Within cache P → (∀ event ∈ events, P event) →
    Within (ops.store cache events).2 P
  tokenStored : ∀ {cache events token}, Denotes cache token →
    Denotes (ops.store cache events).2 token
  read : ∀ {cache P} maxBytes, Within cache P → Within (ops.read cache maxBytes).2 P
  eventsRead : ∀ {cache P maxBytes events token}, Within cache P →
    (ops.read cache maxBytes).1 = .ok (events, token) →
      (∀ event ∈ events, P event) ∧ Denotes (ops.read cache maxBytes).2 token
  remove : ∀ {cache P token}, Within cache P → Denotes cache token →
    Within (ops.remove cache token).2 P
  removeAll : ∀ {cache P}, Within cache P → Within (ops.removeAll cache).2 P
  removedAll : ∀ {cache P Q}, Within cache P → (ops.removeAll cache).1 = .ok () →
    Within (ops.removeAll cache).2 Q

namespace LawfulCache

variable {ops : PersistentCacheOps κ ε} {Contents : κ → List ε → Prop}
  {fits : List ε → List ε → Nat} {token : List ε → Nat}

/-- All the contents have a property. -/
def AllOf (Contents : κ → List ε → Prop) (cache : κ) (P : ε → Prop) : Prop :=
  ∃ contents, Contents cache contents ∧ ∀ event ∈ contents, P event

/-- The token of events at the front. -/
def TokenOf (Contents : κ → List ε → Prop) (token : List ε → Nat) (cache : κ) (numBytes : Nat) :
    Prop :=
  ∃ stored more, Contents cache (stored ++ more) ∧ token stored = numBytes

theorem confined (h : LawfulCache ops Contents fits token) :
    ConfinedCache ops (AllOf Contents) (TokenOf Contents token) where
  mono := by
    rintro cache P Q ⟨contents, hcontents, hall⟩ himp
    exact ⟨contents, hcontents, fun event hevent => himp event (hall event hevent)⟩
  zero := by
    rintro cache P ⟨contents, hcontents, -⟩
    exact ⟨[], contents, hcontents, h.token_nil⟩
  storeSucceeds := by
    rintro cache P events ⟨contents, hcontents, -⟩
    rw [(h.store events hcontents).1]
    exact Option.some_ne_none _
  store := by
    rintro cache P events ⟨contents, hcontents, hall⟩ hevents
    refine ⟨_, (h.store events hcontents).2, ?_⟩
    intro event hevent
    rcases List.mem_append.mp hevent with hevent | hevent
    · exact hall event hevent
    · exact hevents event (List.mem_of_mem_take hevent)
  tokenStored := by
    rintro cache events numBytes ⟨stored, more, hcontents, htoken⟩
    refine ⟨stored, more ++ events.take (fits (stored ++ more) events), ?_, htoken⟩
    rw [← List.append_assoc]
    exact (h.store events hcontents).2
  read := by
    rintro cache P maxBytes ⟨contents, hcontents, hall⟩
    obtain ⟨stored, -, -, hsame⟩ := h.read maxBytes hcontents
    exact ⟨contents, hsame, hall⟩
  eventsRead := by
    rintro cache P maxBytes events numBytes ⟨contents, hcontents, hall⟩ hread
    obtain ⟨stored, ⟨more, rfl⟩, hok, hsame⟩ := h.read maxBytes hcontents
    obtain ⟨rfl, rfl⟩ := Prod.mk.inj (Except.ok.inj (hread.symm.trans hok))
    exact ⟨fun event hevent => hall event (List.mem_append_left _ hevent), _, more, hsame, rfl⟩
  remove := by
    rintro cache P numBytes ⟨contents, hcontents, hall⟩ ⟨stored, more, hsplit, rfl⟩
    obtain rfl := h.unique hcontents hsplit
    exact ⟨more, h.remove hsplit, fun event hevent => hall event (List.mem_append_right _ hevent)⟩
  removeAll := by
    rintro cache P ⟨contents, hcontents, -⟩
    exact ⟨[], h.removeAll hcontents, fun event hevent => absurd hevent List.not_mem_nil⟩
  removedAll := by
    rintro cache P Q ⟨contents, hcontents, -⟩ -
    exact ⟨[], h.removeAll hcontents, fun event hevent => absurd hevent List.not_mem_nil⟩

end LawfulCache

/-! ## 2. A queue as a cache -/

/-- The bytes of an event in the circular file. -/
def elemBytes (cost : ε → Nat) (event : ε) : Nat := sizeofElemSize + cost event

theorem elemBytes_pos (cost : ε → Nat) (event : ε) : 0 < elemBytes cost event := by
  rw [elemBytes, sizeofElemSize]
  omega

/-- The bytes of several events: what a token counts. -/
def tokenForEvents (cost : ε → Nat) (events : List ε) : Nat := (events.map (elemBytes cost)).sum

/-- How many of the events a cache has room for. -/
def numFitting (cost : ε → Nat) (capacity : Nat) (contents events : List ε) : Nat :=
  ((⟨contents, []⟩ : Fifo ε).appendAll (elemBytes cost) capacity events).1

theorem numFitting_le (cost : ε → Nat) (capacity : Nat) (contents events : List ε) :
    numFitting cost capacity contents events ≤ events.length :=
  Fifo.appendAll_length_le (elemBytes cost) capacity ⟨contents, []⟩ events

def fifoCache (cost : ε → Nat) (capacity : Nat) : PersistentCacheOps (List ε) ε where
  store := fun contents events =>
    let numStored := numFitting cost capacity contents events
    (some numStored, contents ++ events.take numStored)
  store_le := by
    intro contents events n h
    rw [← Option.some.inj h]
    exact numFitting_le cost capacity contents events
  read := fun contents maxBytes =>
    let events := takeWithin cost maxBytes contents
    (.ok (events, tokenForEvents cost events), contents)
  hasMore := fun contents token => decide (token < tokenForEvents cost contents)
  remove := fun contents token =>
    (.ok (), contents.drop (takeWithin (elemBytes cost) token contents).length)
  removeAll := fun _ => (.ok (), [])

theorem tokenForEvents_append (cost : ε → Nat) (stored more : List ε) :
    tokenForEvents cost (stored ++ more) =
      tokenForEvents cost stored + tokenForEvents cost more := by
  rw [tokenForEvents, List.map_append, List.sum_append]
  rfl

theorem tokenForEvents_pos (cost : ε → Nat) {events : List ε} (h : events ≠ []) :
    0 < tokenForEvents cost events := by
  cases events with
  | nil => exact absurd rfl h
  | cons event events =>
    rw [tokenForEvents, List.map_cons, List.sum_cons]
    exact Nat.add_pos_left (elemBytes_pos cost event) _

theorem fifoCache_lawful (cost : ε → Nat) (capacity : Nat) :
    LawfulCache (fifoCache cost capacity) (fun cache contents => cache = contents)
      (numFitting cost capacity) (tokenForEvents cost) where
  token_nil := rfl
  unique := fun h h' => h.symm.trans h'
  store := by
    rintro cache contents events rfl
    exact ⟨rfl, rfl⟩
  read := by
    rintro cache contents maxBytes rfl
    exact ⟨_, takeWithin_isPrefix cost maxBytes cache, rfl, rfl⟩
  hasMore := by
    rintro cache stored more rfl
    show decide (tokenForEvents cost stored < tokenForEvents cost (stored ++ more)) = true ↔ _
    rw [decide_eq_true_eq, tokenForEvents_append]
    constructor
    · rintro hlt rfl
      exact absurd hlt (Nat.lt_irrefl _)
    · intro hmore
      have hpos := tokenForEvents_pos cost hmore
      omega
  remove := by
    rintro cache stored more rfl
    show (stored ++ more).drop
      (takeWithin (elemBytes cost) (tokenForEvents cost stored) (stored ++ more)).length = more
    rw [tokenForEvents, takeWithin_sum_append (elemBytes_pos cost), List.drop_left]
  removeAll := by
    rintro cache contents rfl
    rfl

/-! ## 3. A daemon to run -/

/-- Events that are their own cost, in a cache of 1000 bytes. -/
def sampleParts : DaemonParts (List Nat) Nat where
  cost := id
  cache := fifoCache id 1000
  parsesPingSocket := fun _ => true
  parsesHttpRequestUrl := fun _ => true

/-- A config file with recording and uploading on and a server URL without a placeholder. -/
def sampleConfigFile : KeyFile :=
  ((KeyFile.empty.setBoolean daemonGlobalGroupName daemonEnabledKeyName true).setBoolean
    daemonGlobalGroupName daemonUploadingEnabledKeyName true).setValue
    daemonGlobalGroupName daemonServerUrlKeyName "https://localhost".toList

def sampleDaemon : EmerDaemon (List Nat) Nat :=
  .new sampleParts (emerPermissionsProviderNew (.parsed sampleConfigFile) none) [] 100 []

end EventRecorder
