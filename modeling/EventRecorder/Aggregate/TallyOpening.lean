import EventRecorder.Aggregate.Tally
import EventRecorder.Theory.Run

/-!
# Opening the tally

The tally is a SQLite database in write-ahead mode.  Three statements make its schema, the last of
which sets the version, and a database that cannot be used is deleted and made again.  The process
may be killed before each statement, and every statement and every unlinking may fail.
-/

namespace EventRecorder

open Theory

/-! ## 1. The files -/

/-- What a database holds; `tally` is the table, if there is one. -/
structure TallyDatabase where
  userVersion : Int
  tally : Option EmerAggregateTally
  hasUniqueIndex : Bool
  deriving DecidableEq, Repr

/-- A database whose file does not exist. -/
def TallyDatabase.absent : TallyDatabase := ⟨0, none, false⟩

/-- A statement on the table; `ON CONFLICT` needs the unique index. -/
def TallyDatabase.update (op : EmerAggregateTally → EmerAggregateTally) (db : TallyDatabase) :
    TallyDatabase :=
  if db.hasUniqueIndex then { db with tally := db.tally.map op } else db

/-- `metrics.db`, and what it becomes with its write-ahead log, if there is one. -/
structure TallyFiles where
  main : TallyDatabase
  wal : Option TallyDatabase
  deriving DecidableEq, Repr

namespace TallyFiles

def contents (files : TallyFiles) : TallyDatabase := files.wal.getD files.main

/-- A transaction goes to the log. -/
def commit (files : TallyFiles) (f : TallyDatabase → TallyDatabase) : TallyFiles :=
  { files with wal := some (f files.contents) }

def checkpoint (files : TallyFiles) : TallyFiles := ⟨files.contents, none⟩

end TallyFiles

/-- The calls of `emer_aggregate_tally_init_db`, in program order. -/
inductive InitStep where
  | sqlite3Open
  | extendedResultCodes
  | journalMode
  | applicationId
  | readUserVersion
  | createTable
  | createIndex
  | setUserVersion
  deriving DecidableEq, Repr

inductive SqlOutcome where
  | ok
  | failed (code : Int)
  | killed
  deriving DecidableEq, Repr

/-- Why the database is not initialised.  `unset` is `FALSE` without an error. -/
inductive InitError where
  | sqlite (call : InitStep) (code : Int)
  | message (text : String)
  | unset
  | killed
  deriving DecidableEq, Repr

/-- The database initialised, or the error and the files as they are left. -/
abbrev InitResult := Except (InitError × TallyFiles) TallyFiles

def TallyFiles.exec (files : TallyFiles) : InitStep → TallyFiles
  -- `IF NOT EXISTS`
  | .createTable => files.commit fun db => { db with tally := some (db.tally.getD ⟨[]⟩) }
  | .createIndex => files.commit fun db => { db with hasUniqueIndex := true }
  | .setUserVersion => files.commit fun db => { db with userVersion := 2 }
  | _ => files

/-! ## 2. Opening -/

/-- `CHECK` of a call. -/
def checkCall (outcome : InitStep → SqlOutcome) (call : InitStep) (files : TallyFiles) :
    InitResult :=
  match outcome call with
  | .ok => .ok (files.exec call)
  | .failed code => .error (.sqlite call code, files)
  | .killed => .error (.killed, files)

/-- `emer_aggregate_tally_init_db` -/
def initDb (outcome : InitStep → SqlOutcome) (files : TallyFiles) : InitResult := do
  let files ← checkCall outcome .sqlite3Open files
  let files ← checkCall outcome .extendedResultCodes files
  let files ← checkCall outcome .journalMode files
  let files ← checkCall outcome .applicationId files
  let files ← checkCall outcome .readUserVersion files
  let userVersion := files.contents.userVersion
  -- taken for an error of the query
  if userVersion = -1 then .error (.unset, files)
  else if userVersion = 0 then do
    let files ← checkCall outcome .createTable files
    let files ← checkCall outcome .createIndex files
    checkCall outcome .setUserVersion files
  else if userVersion = 1 then .error (.message "Can't migrate from schema version 1", files)
  else if userVersion = 2 then .ok files
  else .error (.message s!"Unexpected user_version {userVersion}", files)

inductive UnlinkOutcome where
  | unlinked
  | failed
  | killed
  deriving DecidableEq, Repr

/-- What happens when a tally is constructed: the calls of the two attempts, whether closing the
database checkpoints it, and what becomes of its three files in between. -/
structure TallyOpening where
  first : InitStep → SqlOutcome
  checkpoints : Bool
  unlinkMain : UnlinkOutcome
  unlinkShm : UnlinkOutcome
  unlinkWal : UnlinkOutcome
  second : InitStep → SqlOutcome

/-- A file that cannot be unlinked is only warned about. -/
def unlink (outcome : UnlinkOutcome) (gone files : TallyFiles) : InitResult :=
  match outcome with
  | .unlinked => .ok gone
  | .failed => .ok files
  | .killed => .error (.killed, files)

/-- `emer_aggregate_tally_delete_db`.  SQLite ignores the log of a database that does not exist, and
makes the index of a log again. -/
def deleteDb (opening : TallyOpening) (files : TallyFiles) : InitResult := do
  let files ← unlink opening.unlinkMain ⟨.absent, none⟩ files
  let files ← unlink opening.unlinkShm files files
  unlink opening.unlinkWal { files with wal := none } files

/-- The database open, or the files that a process which has ended leaves. -/
inductive TallyLife where
  | closed (files : TallyFiles)
  | opened (files : TallyFiles)

def TallyLife.files : TallyLife → TallyFiles
  | .closed files => files
  | .opened files => files

def TallyLife.isOpened : TallyLife → Bool
  | .closed _ => false
  | .opened _ => true

/-- `g_error` ends the process when the last attempt fails. -/
def TallyLife.ofInit : InitResult → TallyLife
  | .ok files => .opened files
  | .error (_, files) => .closed files

/-- `emer_aggregate_tally_constructed` -/
def tallyConstructed (opening : TallyOpening) (files : TallyFiles) : TallyLife :=
  match initDb opening.first files with
  | .ok files => .opened files
  | .error (.killed, files) => .closed files
  -- the warning reads the message of an error that is `NULL`
  | .error (.unset, files) => .closed files
  | .error (_, files) =>
    let files := if opening.checkpoints then files.checkpoint else files
    .ofInit (deleteDb opening files >>= initDb opening.second)

/-! ## 3. Lives -/

inductive TallyEvent where
  | constructed (opening : TallyOpening)
  /-- An operation of the tally on its rows. -/
  | update (op : EmerAggregateTally → EmerAggregateTally)
  | checkpoint
  /-- The process ends, with or without a checkpoint. -/
  | ended (checkpoints : Bool)

namespace TallyLife

def step : TallyLife → TallyEvent → TallyLife
  | .closed files, .constructed opening => tallyConstructed opening files
  | .opened files, .update op => .opened (files.commit (·.update op))
  | .opened files, .checkpoint => .opened files.checkpoint
  | .opened files, .ended checkpoints =>
    .closed (if checkpoints then files.checkpoint else files)
  | life, _ => life

end TallyLife

/-! ## 4. The schema -/

/-- What this program makes, up to its version: the version comes last, and nothing is stored before
it is set. -/
structure TallyDatabase.Sound (db : TallyDatabase) : Prop where
  complete : db.userVersion = 2 → db.tally.isSome = true ∧ db.hasUniqueIndex = true
  unused : db.userVersion = 0 → ∀ tally ∈ db.tally, tally.rows = []

structure TallyFiles.Sound (files : TallyFiles) : Prop where
  main : files.main.Sound
  contents : files.contents.Sound

theorem TallyDatabase.sound_absent : TallyDatabase.absent.Sound :=
  ⟨fun h => absurd h (by decide), fun _ _ h => by cases h⟩

theorem TallyFiles.sound_absent : TallyFiles.Sound ⟨.absent, none⟩ :=
  ⟨TallyDatabase.sound_absent, TallyDatabase.sound_absent⟩

namespace TallyFiles.Sound

variable {files : TallyFiles}

theorem commit (h : files.Sound) {f : TallyDatabase → TallyDatabase}
    (hf : (f files.contents).Sound) : (files.commit f).Sound :=
  ⟨h.main, hf⟩

theorem checkpoint (h : files.Sound) : files.checkpoint.Sound :=
  ⟨h.contents, h.contents⟩

theorem checkpointed (h : files.Sound) (checkpoints : Bool) :
    (if checkpoints then files.checkpoint else files).Sound := by
  split
  · exact h.checkpoint
  · exact h

end TallyFiles.Sound

/-- What holds when an attempt succeeds, and what when it fails. -/
def Ends (good : TallyFiles → Prop) (bad : InitError → TallyFiles → Prop) : InitResult → Prop
  | .ok files => good files
  | .error (error, files) => bad error files

section Ends

variable {good mid : TallyFiles → Prop} {bad : InitError → TallyFiles → Prop}
  {outcome : InitStep → SqlOutcome} {files : TallyFiles} {call : InitStep}

theorem Ends.bind {result : InitResult} {next : TallyFiles → InitResult}
    (h : Ends mid bad result) (hnext : ∀ files, mid files → Ends good bad (next files)) :
    Ends good bad (result >>= next) := by
  cases result with
  | ok files => exact hnext files h
  | error failure => exact h

/-- A call is made, or it is the last one. -/
theorem ends_checkCall (hok : outcome call = .ok → good (files.exec call))
    (hfailed : ∀ code, outcome call = .failed code → bad (.sqlite call code) files)
    (hkilled : outcome call = .killed → bad .killed files) :
    Ends good bad (checkCall outcome call files) := by
  unfold checkCall
  split
  · exact hok ‹_›
  · exact hfailed _ ‹_›
  · exact hkilled ‹_›

/-- **Invariant rule** for an attempt: one obligation for the version that is found, and one for
each statement that makes the schema. -/
theorem ends_initDb {I : TallyFiles → Prop} {start : TallyFiles} (hstart : I start)
    (hfailed : ∀ files call code, I files → outcome call = .failed code →
      bad (.sqlite call code) files)
    (hkilled : ∀ files call, I files → outcome call = .killed → bad .killed files)
    (hunset : start.contents.userVersion = -1 → bad .unset start)
    (htable : start.contents.userVersion = 0 → I (start.exec .createTable))
    (hindex : start.contents.userVersion = 0 → I ((start.exec .createTable).exec .createIndex))
    (hversion : start.contents.userVersion = 0 →
      good (((start.exec .createTable).exec .createIndex).exec .setUserVersion))
    (hcomplete : start.contents.userVersion = 2 → good start)
    (hforeign : ∀ text, start.contents.userVersion ≠ -1 → start.contents.userVersion ≠ 0 →
      start.contents.userVersion ≠ 2 → bad (.message text) start) :
    Ends good bad (initDb outcome start) := by
  have hcall : ∀ {call : InitStep} {files : TallyFiles} {mid : TallyFiles → Prop}, I files →
      mid (files.exec call) → Ends mid bad (checkCall outcome call files) := by
    intro call files mid hI hmid
    exact ends_checkCall (fun _ => hmid) (fun code => hfailed files call code hI)
      (hkilled files call hI)
  -- the calls before the version is known change nothing
  have hbefore : ∀ {call : InitStep} {next : TallyFiles → InitResult}, start.exec call = start →
      Ends good bad (next start) → Ends good bad (checkCall outcome call start >>= next) := by
    intro call next hsame hnext
    apply @Ends.bind good (fun files => files = start) bad _ _ (hcall hstart hsame)
    intro files heq
    rw [heq]
    exact hnext
  unfold initDb
  apply hbefore rfl
  apply hbefore rfl
  apply hbefore rfl
  apply hbefore rfl
  apply hbefore rfl
  dsimp only
  split
  · exact hunset ‹_›
  split
  · rename_i hzero
    apply @Ends.bind good (fun files => files = start.exec .createTable) bad _ _
      (hcall hstart rfl)
    rintro files rfl
    apply @Ends.bind good (fun files => files = (start.exec .createTable).exec .createIndex) bad
      _ _ (hcall (htable hzero) rfl)
    rintro files rfl
    exact hcall (hindex hzero) (hversion hzero)
  split
  · exact hforeign _ ‹_› ‹_› (by omega)
  split
  · exact hcomplete ‹_›
  · exact hforeign _ ‹_› ‹_› ‹_›

end Ends

variable {outcome : InitStep → SqlOutcome} {files : TallyFiles} {life : TallyLife}

/-! The three statements, on a database whose version is still `0`. -/

theorem sound_createTable (h : files.Sound) (hzero : files.contents.userVersion = 0) :
    (files.exec .createTable).Sound := by
  refine ⟨h.main, ?_, ?_⟩
  · intro htwo
    rw [show files.contents.userVersion = 2 from htwo] at hzero
    cases hzero
  · intro _ tally htally
    cases Option.some.inj htally
    cases hfound : files.contents.tally with
    | none => rfl
    | some found => exact h.contents.unused hzero found hfound

theorem sound_createIndex (h : files.Sound) (hzero : files.contents.userVersion = 0) :
    ((files.exec .createTable).exec .createIndex).Sound :=
  ⟨h.main, fun _ => ⟨rfl, rfl⟩, (sound_createTable h hzero).contents.unused⟩

theorem sound_setUserVersion (h : files.Sound) :
    (((files.exec .createTable).exec .createIndex).exec .setUserVersion).Sound :=
  ⟨h.main, fun _ => ⟨rfl, rfl⟩, fun hzero =>
    absurd (show (2 : Int) = 0 from hzero) (by decide)⟩

theorem ends_initDb_sound (h : files.Sound) :
    Ends (fun next => next.Sound ∧ next.contents.userVersion = 2) (fun _ next => next.Sound)
      (initDb outcome files) := by
  apply ends_initDb h
  · exact fun files call code hsound _ => hsound
  · exact fun files call hsound _ => hsound
  · exact fun _ => h
  · exact sound_createTable h
  · exact sound_createIndex h
  · exact fun _ => ⟨sound_setUserVersion h, rfl⟩
  · exact fun htwo => ⟨h, htwo⟩
  · exact fun _ _ _ _ => h

theorem ends_unlink {gone : TallyFiles} {I : TallyFiles → Prop} (hgone : I gone) (h : I files)
    (unlinkOutcome : UnlinkOutcome) : Ends I (fun _ => I) (unlink unlinkOutcome gone files) := by
  cases unlinkOutcome with
  | unlinked => exact hgone
  | failed => exact h
  | killed => exact h

theorem ends_deleteDb_sound (h : files.Sound) (opening : TallyOpening) :
    Ends TallyFiles.Sound (fun _ => TallyFiles.Sound) (deleteDb opening files) := by
  apply (ends_unlink TallyFiles.sound_absent h opening.unlinkMain).bind
  intro files h
  apply (ends_unlink h h opening.unlinkShm).bind
  intro files h
  -- what was not checkpointed is gone with the log
  have hmain : TallyFiles.Sound { files with wal := none } := ⟨h.main, h.main⟩
  exact ends_unlink hmain h opening.unlinkWal

/-- What holds of the files in every life. -/
structure TallyLife.Sound (life : TallyLife) : Prop where
  files : life.files.Sound
  version : life.isOpened = true → life.files.contents.userVersion = 2

theorem sound_ofInit {result : InitResult}
    (h : Ends (fun next => next.Sound ∧ next.contents.userVersion = 2) (fun _ => TallyFiles.Sound)
      result) : (TallyLife.ofInit result).Sound := by
  cases result with
  | ok files => exact ⟨h.1, fun _ => h.2⟩
  | error failure => exact ⟨h, fun hopened => by cases hopened⟩

theorem sound_tallyConstructed (h : files.Sound) (opening : TallyOpening) :
    (tallyConstructed opening files).Sound := by
  have hfirst := @ends_initDb_sound opening.first _ h
  unfold tallyConstructed
  split
  · rename_i next hok
    rw [hok] at hfirst
    exact ⟨hfirst.1, fun _ => hfirst.2⟩
  · rename_i next herror
    rw [herror] at hfirst
    exact ⟨hfirst, fun hopened => by cases hopened⟩
  · rename_i next herror
    rw [herror] at hfirst
    exact ⟨hfirst, fun hopened => by cases hopened⟩
  · rename_i error next _ _ herror
    rw [herror] at hfirst
    have hclosed : next.Sound := hfirst
    exact sound_ofInit ((ends_deleteDb_sound (hclosed.checkpointed opening.checkpoints)
      opening).bind fun files hfiles => ends_initDb_sound hfiles)

/-- A database with its schema takes an operation on its rows. -/
theorem update_eq (h : files.Sound) (htwo : files.contents.userVersion = 2)
    (op : EmerAggregateTally → EmerAggregateTally) :
    files.contents.update op =
      { files.contents with tally := files.contents.tally.map op } :=
  if_pos (h.contents.complete htwo).2

theorem sound_update (h : files.Sound) (htwo : files.contents.userVersion = 2)
    (op : EmerAggregateTally → EmerAggregateTally) : (files.commit (·.update op)).Sound := by
  obtain ⟨hsome, hindex⟩ := h.contents.complete htwo
  refine h.commit ?_
  rw [update_eq h htwo]
  constructor
  · exact fun _ => ⟨by rw [Option.isSome_map]; exact hsome, hindex⟩
  · intro hzero
    rw [show files.contents.userVersion = 0 from hzero] at htwo
    cases htwo

/-- **Step lemma.** -/
theorem TallyLife.Sound.step (h : life.Sound) (event : TallyEvent) : (life.step event).Sound := by
  cases life with
  | closed files =>
    cases event with
    | constructed opening => exact sound_tallyConstructed h.files opening
    | _ => exact h
  | opened files =>
    have htwo : files.contents.userVersion = 2 := h.version rfl
    cases event with
    | constructed opening => exact h
    | update op =>
      have hfiles : files.Sound := h.files
      refine ⟨sound_update hfiles htwo op, fun _ => ?_⟩
      show (files.contents.update op).userVersion = 2
      rw [update_eq hfiles htwo]
      exact htwo
    | checkpoint => exact ⟨h.files.checkpoint, fun _ => htwo⟩
    | ended checkpoints =>
      exact ⟨h.files.checkpointed checkpoints, fun hopened => by cases hopened⟩

/-- No call and no unlinking fails, and the process goes on. -/
def TallyOpening.Undisturbed (opening : TallyOpening) : Prop :=
  opening.first = (fun _ => .ok) ∧ opening.unlinkMain = .unlinked ∧
    opening.unlinkShm = .unlinked ∧ opening.unlinkWal = .unlinked ∧
    opening.second = fun _ => .ok

namespace TallyLife

/-- A tally that is open has the table and the index that its statements need. -/
def Usable (life : TallyLife) : Prop :=
  life.isOpened = true → life.files.contents.userVersion = 2 ∧
    life.files.contents.tally.isSome = true ∧ life.files.contents.hasUniqueIndex = true

/-- Whatever came before, the next process opens the tally, but for one version. -/
def Recoverable (life : TallyLife) : Prop :=
  life.isOpened = false → ∀ opening : TallyOpening, opening.Undisturbed →
    ((life.step (.constructed opening)).isOpened = true ↔
      life.files.contents.userVersion ≠ -1)

end TallyLife

/-- What an attempt does in which nothing fails. -/
theorem ends_initDb_ok (files : TallyFiles) :
    Ends (fun _ => files.contents.userVersion ≠ -1)
      (fun error next => next = files ∧
        (error = .unset ∧ files.contents.userVersion = -1 ∨
          (∃ text, error = .message text) ∧ files.contents.userVersion ≠ -1 ∧
            files.contents.userVersion ≠ 0))
      (initDb (fun _ => .ok) files) := by
  apply @ends_initDb _ _ _ (fun _ => True)
  · exact trivial
  · intro _ _ _ _ hfailed
    cases hfailed
  · intro _ _ _ hkilled
    cases hkilled
  · exact fun hunset => ⟨rfl, .inl ⟨rfl, hunset⟩⟩
  · exact fun _ => trivial
  · exact fun _ => trivial
  · intro hzero
    rw [hzero]
    decide
  · intro htwo
    rw [htwo]
    decide
  · exact fun text hunset hzero _ => ⟨rfl, .inr ⟨⟨text, rfl⟩, hunset, hzero⟩⟩

/-- Once the files are gone, an attempt in which nothing fails succeeds. -/
theorem isOpened_deleted {opening : TallyOpening} (h : opening.Undisturbed) (files : TallyFiles) :
    (TallyLife.ofInit (deleteDb opening files >>= initDb opening.second)).isOpened = true := by
  obtain ⟨-, hmain, hshm, hwal, hsecond⟩ := h
  unfold deleteDb
  rw [hmain, hshm, hwal, hsecond]
  rfl

theorem TallyLife.recoverable (life : TallyLife) : life.Recoverable := by
  intro hclosed opening hundisturbed
  cases life with
  | opened files => cases hclosed
  | closed files =>
    have hattempt := ends_initDb_ok files
    have hfirst : opening.first = fun _ => .ok := hundisturbed.1
    show (tallyConstructed opening files).isOpened = true ↔ files.contents.userVersion ≠ -1
    unfold tallyConstructed
    rw [hfirst]
    split
    · rename_i next hok
      rw [hok] at hattempt
      exact iff_of_true rfl hattempt
    · rename_i next herror
      rw [herror] at hattempt
      obtain ⟨-, ⟨hkilled, -⟩ | ⟨⟨text, hkilled⟩, -⟩⟩ := hattempt
      · cases hkilled
      · cases hkilled
    · rename_i next herror
      rw [herror] at hattempt
      obtain ⟨-, ⟨-, hunset⟩ | ⟨⟨text, hmessage⟩, -⟩⟩ := hattempt
      · exact iff_of_false Bool.false_ne_true (not_not_intro hunset)
      · cases hmessage
    · rename_i error next _ hnotUnset herror
      rw [herror] at hattempt
      obtain ⟨-, ⟨hunset, -⟩ | ⟨-, hversion, -⟩⟩ := hattempt
      · exact absurd hunset hnotUnset
      · exact iff_of_true (isOpened_deleted hundisturbed _) hversion

/-- However often the process was killed and whatever failed, a tally that is open is usable, and
one that is not open opens the next time nothing fails: exactly when its version is not `-1`. -/
theorem tally_usable_whenever_opened {files : TallyFiles} (hfiles : files.Sound)
    (events : List TallyEvent) :
    Throughout TallyLife.step (fun life => life.Usable ∧ life.Recoverable) (.closed files)
      events := by
  have hrun : Throughout TallyLife.step TallyLife.Sound (.closed files) events := by
    apply throughout_of_invariant
    · exact fun life event h => h.step event
    · exact ⟨hfiles, fun hopened => by cases hopened⟩
  exact hrun.mono fun life h => ⟨fun hopened =>
    ⟨h.version hopened, h.files.contents.complete (h.version hopened)⟩, life.recoverable⟩

def undisturbedOpening : TallyOpening where
  first := fun _ => .ok
  checkpoints := true
  unlinkMain := .unlinked
  unlinkShm := .unlinked
  unlinkWal := .unlinked
  second := fun _ => .ok

/-- The process is killed while it makes the schema; the next one stores a row, and is killed
too. -/
def killedTwice : List TallyEvent :=
  [.constructed { undisturbedOpening with
      first := fun call => if call = .createIndex then .killed else .ok },
    .constructed undisturbedOpening,
    .update fun tally => ⟨⟨1, ⟨"2021-09-22".toList, List.replicate 16 7, 1001, []⟩, .integer 5⟩ ::
      tally.rows⟩,
    .ended false, .constructed undisturbedOpening]

theorem tally_usable_whenever_opened_killedTwice :
    Throughout TallyLife.step (fun life => life.Usable ∧ life.Recoverable)
      (.closed ⟨.absent, none⟩) killedTwice :=
  tally_usable_whenever_opened TallyFiles.sound_absent killedTwice

/-! ## 5. The rows -/

/-- The rows that have been stored. -/
def TallyDatabase.rows (db : TallyDatabase) : EmerAggregateTally :=
  if db.userVersion = 2 then db.tally.getD ⟨[]⟩ else ⟨[]⟩

/-- The database has been left by this program. -/
structure TallyFiles.Own (files : TallyFiles) : Prop where
  sound : files.Sound
  version : files.contents.userVersion = 0 ∨ files.contents.userVersion = 2

def TallyEvent.FailsNothing : TallyEvent → Prop
  | .constructed opening => ∀ call code, opening.first call ≠ .failed code
  | _ => True

namespace TallyLife

/-- The operations that reach the table in a run. -/
def updatesMade : TallyLife → List TallyEvent → List (EmerAggregateTally → EmerAggregateTally)
  | _, [] => []
  | .opened files, .update op :: events =>
    op :: updatesMade (step (.opened files) (.update op)) events
  | life, event :: events => updatesMade (step life event) events

end TallyLife

/-- An attempt in which no call fails keeps the rows, even when the process is killed. -/
theorem ends_initDb_kept (h : files.Own) (hnone : ∀ call code, outcome call ≠ .failed code) :
    Ends (fun next => next.Own ∧ next.contents.rows = files.contents.rows)
      (fun error next => error = .killed ∧ next.Own ∧ next.contents.rows = files.contents.rows)
      (initDb outcome files) := by
  have hempty : files.contents.userVersion = 0 → files.contents.rows = ⟨[]⟩ := by
    intro hzero
    exact if_neg (by rw [hzero]; decide)
  have hunmade : ∀ {db : TallyDatabase}, db.userVersion = files.contents.userVersion →
      files.contents.userVersion = 0 → db.rows = files.contents.rows := by
    intro db hsame hzero
    rw [hempty hzero]
    exact if_neg (by rw [hsame, hzero]; decide)
  apply @ends_initDb _ _ _ (fun next => next.Own ∧ next.contents.rows = files.contents.rows)
  · exact ⟨h, rfl⟩
  · exact fun _ call code _ hfailed => absurd hfailed (hnone call code)
  · exact fun _ _ hkept _ => ⟨rfl, hkept⟩
  · intro hunset
    have hversion := h.version
    omega
  · exact fun hzero => ⟨⟨sound_createTable h.sound hzero, .inl hzero⟩, hunmade rfl hzero⟩
  · exact fun hzero => ⟨⟨sound_createIndex h.sound hzero, .inl hzero⟩, hunmade rfl hzero⟩
  · intro hzero
    refine ⟨⟨sound_setUserVersion h.sound, .inr rfl⟩, ?_⟩
    -- nothing had been stored in a table without a version
    rw [hempty hzero]
    show files.contents.tally.getD ⟨[]⟩ = ⟨[]⟩
    cases hfound : files.contents.tally with
    | none => rfl
    | some found =>
      have hunused := h.sound.contents.unused hzero found hfound
      cases found
      exact congrArg EmerAggregateTally.mk hunused
  · exact fun htwo => ⟨h, rfl⟩
  · intro _ _ hzero htwo
    have hversion := h.version
    omega

/-- An opening in which no statement fails opens the tally or is killed, and keeps the rows. -/
theorem own_tallyConstructed (h : files.Own) {opening : TallyOpening}
    (hnone : ∀ call code, opening.first call ≠ .failed code) :
    (tallyConstructed opening files).files.Own ∧
      (tallyConstructed opening files).files.contents.rows = files.contents.rows := by
  have hattempt := ends_initDb_kept h hnone
  unfold tallyConstructed
  split
  · rename_i next hok
    rw [hok] at hattempt
    exact hattempt
  · rename_i next herror
    rw [herror] at hattempt
    exact hattempt.2
  · rename_i next herror
    rw [herror] at hattempt
    cases hattempt.1
  · rename_i error next hnotKilled _ herror
    rw [herror] at hattempt
    exact absurd hattempt.1 hnotKilled

theorem own_update (h : files.Own) (htwo : files.contents.userVersion = 2)
    (op : EmerAggregateTally → EmerAggregateTally) :
    (files.commit (·.update op)).Own ∧
      (files.commit (·.update op)).contents.rows = op files.contents.rows := by
  have hupdate : (files.commit (·.update op)).contents =
      { files.contents with tally := files.contents.tally.map op } := update_eq h.sound htwo op
  refine ⟨⟨sound_update h.sound htwo op, .inr ?_⟩, ?_⟩
  · rw [hupdate]
    exact htwo
  · obtain ⟨tally, htally⟩ := Option.isSome_iff_exists.mp (h.sound.contents.complete htwo).1
    unfold TallyDatabase.rows
    rw [hupdate, if_pos htwo, if_pos htwo, htally]
    rfl

/-- What holds of a life that began with a database of this program. -/
structure TallyLife.Own (life : TallyLife) : Prop where
  files : life.files.Own
  version : life.isOpened = true → life.files.contents.userVersion = 2

/-- **Run lemma.** -/
theorem rows_run (h : life.Own) (events : List TallyEvent)
    (hevents : ∀ event ∈ events, event.FailsNothing) :
    (run TallyLife.step life events).files.contents.rows =
      (life.updatesMade events).foldl (fun tally op => op tally) life.files.contents.rows := by
  induction events generalizing life with
  | nil => rfl
  | cons event events ih =>
    have hsound : (life.step event).Sound := TallyLife.Sound.step ⟨h.files.sound, h.version⟩ event
    have hrest := fun event hmem => hevents event (List.mem_cons_of_mem _ hmem)
    -- an event that is no operation on the rows leaves them alone
    have hkept : ∀ {after : TallyLife}, life.step event = after → after.files.Own →
        after.files.contents.rows = life.files.contents.rows →
        life.updatesMade (event :: events) = after.updatesMade events →
        (run TallyLife.step life (event :: events)).files.contents.rows =
          (life.updatesMade (event :: events)).foldl (fun tally op => op tally)
            life.files.contents.rows := by
      rintro after rfl hown hrows hupdates
      rw [run_cons, ih ⟨hown, hsound.version⟩ hrest, hrows, hupdates]
    cases life with
    | closed files =>
      cases event with
      | constructed opening =>
        obtain ⟨hown, hrows⟩ := own_tallyConstructed h.files (hevents _ List.mem_cons_self)
        exact hkept rfl hown hrows rfl
      | update op => exact hkept rfl h.files rfl rfl
      | checkpoint => exact hkept rfl h.files rfl rfl
      | ended checkpoints => exact hkept rfl h.files rfl rfl
    | opened files =>
      have hcheckpoint : files.checkpoint.Own := ⟨h.files.sound.checkpoint, h.files.version⟩
      cases event with
      | constructed opening => exact hkept rfl h.files rfl rfl
      | update op =>
        have hfiles : files.Own := h.files
        obtain ⟨hown, hrows⟩ := own_update hfiles (h.version rfl) op
        have hafter : (run TallyLife.step (.opened (files.commit (·.update op)))
            events).files.contents.rows = _ := ih ⟨hown, hsound.version⟩ hrest
        rw [run_cons]
        refine hafter.trans ?_
        rw [show (TallyLife.opened (files.commit (·.update op))).files =
          files.commit (·.update op) from rfl, hrows]
        rfl
      | checkpoint => exact hkept rfl hcheckpoint rfl rfl
      | ended checkpoints =>
        cases checkpoints with
        | true => exact hkept rfl hcheckpoint rfl rfl
        | false => exact hkept rfl h.files rfl rfl

/-- As long as no statement fails while the tally is opened, it holds what every process has made of
it, whenever they were killed. -/
theorem tally_kept_across_kills {files : TallyFiles} (hfiles : files.Own)
    (events : List TallyEvent) (hevents : ∀ event ∈ events, event.FailsNothing) :
    (run TallyLife.step (.closed files) events).files.contents.rows =
      ((TallyLife.closed files).updatesMade events).foldl (fun tally op => op tally)
        files.contents.rows := by
  have hstart : (TallyLife.closed files).Own := ⟨hfiles, fun hopened => by cases hopened⟩
  exact rows_run hstart events hevents

theorem tally_kept_across_kills_killedTwice :
    (run TallyLife.step (.closed ⟨.absent, none⟩) killedTwice).files.contents.rows =
      ((TallyLife.closed ⟨.absent, none⟩).updatesMade killedTwice).foldl
        (fun tally op => op tally) ⟨[]⟩ := by
  have hown : TallyFiles.Own ⟨.absent, none⟩ := ⟨TallyFiles.sound_absent, .inl rfl⟩
  apply tally_kept_across_kills hown killedTwice
  have hundisturbed : (TallyEvent.constructed undisturbedOpening).FailsNothing :=
    fun call code h => by cases h
  intro event hmem
  simp only [killedTwice, List.mem_cons, List.not_mem_nil, or_false] at hmem
  obtain rfl | rfl | rfl | rfl | rfl := hmem
  · intro call code h
    dsimp only at h
    split at h
    · cases h
    · cases h
  · exact hundisturbed
  · exact trivial
  · exact trivial
  · exact hundisturbed

end EventRecorder
