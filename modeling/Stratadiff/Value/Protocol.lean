import Stratadiff.Value.Log

/-!
# Appending under a lock that a rename replaces

A path names an inode, and a lock is on an inode. An appender opens the path, locks what
it opened, checks that the path still names it, and publishes a new content by renaming a
new file over the path. After the rename the lock that the next appenders wait for is on a
file that is not the log any more.

What makes this work is that only the holder of the lock on the named inode renames, and
that a holder whose check succeeded stays the one whose inode the path names. Reads and
writes of the log are then as in one order of whole batches.
-/

namespace Stratadiff.Value

/-- An inode; numbers of files in use are not given again. -/
abbrev Ino := Nat

/-- One call of `append_events` or `read_log_path`. -/
abbrev Pid := Nat

inductive Call where
  | append (requested : List FunnelEvent)
  | read
  deriving DecidableEq, Repr

inductive Answer where
  | appended
  | log (verified : VerifiedLog)
  deriving DecidableEq, Repr

/-- Where a call is. -/
inductive Phase where
  /-- Before `open_log`, also after a check that failed. -/
  | ready
  | opened (file : Ino)
  | locked (file : Ino)
  /-- `open_current_log_locked` has returned. -/
  | current (file : Ino)
  | loaded (file : Ino) (bytes : Bytes)
  /-- The temporary file exists and may have some of the bytes. -/
  | staging (file : Ino) (replacement : Bytes) (temporary : Ino)
  /-- The temporary file has the right length. -/
  | staged (file : Ino) (replacement : Bytes) (temporary : Ino)
  /-- The path was seen to name the locked file once more. -/
  | checked (file : Ino) (replacement : Bytes) (temporary : Ino)
  | renamed (file : Ino)
  /-- The answer is known and the lock is not released yet. -/
  | ended (file : Ino) (answer : Result Answer)
  | returned (answer : Result Answer)
  | crashed
  deriving DecidableEq

namespace Phase

/-- The file that a call has open. -/
def file? : Phase → Option Ino
  | opened file => some file
  | locked file => some file
  | current file => some file
  | loaded file _ => some file
  | staging file _ _ => some file
  | staged file _ _ => some file
  | checked file _ _ => some file
  | renamed file => some file
  | ended file _ => some file
  | _ => none

/-- The file that a call has locked; a crash closes the file and releases the lock. -/
def lock? : Phase → Option Ino
  | opened _ => none
  | phase => phase.file?

def temporary? : Phase → Option Ino
  | staging _ _ temporary => some temporary
  | staged _ _ temporary => some temporary
  | checked _ _ temporary => some temporary
  | _ => none

/-- The file that a call has seen to be the log and has not replaced. -/
def current? : Phase → Option Ino
  | current file => some file
  | loaded file _ => some file
  | staging file _ _ => some file
  | staged file _ _ => some file
  | checked file _ _ => some file
  | _ => none

end Phase

structure System where
  path : Option Ino
  files : List Bytes
  phase : Pid → Phase

namespace System

/-- The content of the log; without a file there is nothing in it. -/
def log (s : System) : Bytes := ((s.path.bind fun file => s.files[file]?)).getD []

/-- A system in which a call has moved on. -/
def set (s : System) (p : Pid) (phase : Phase) : System :=
  { s with phase := Function.update s.phase p phase }

@[simp] theorem set_phase_self (s : System) (p : Pid) (phase : Phase) :
    (s.set p phase).phase p = phase := Function.update_self ..

theorem set_phase_of_ne (s : System) {p q : Pid} (phase : Phase) (h : q ≠ p) :
    (s.set p phase).phase q = s.phase q := Function.update_of_ne h ..

/-- No call has begun; there may be a log. -/
def initial : Option Bytes → System
  | none => ⟨none, [], fun _ => .ready⟩
  | some content => ⟨some 0, [content], fun _ => .ready⟩

end System

variable (codec : Codec) (calls : Pid → Call)

/-- Whether a call may lock a file while another holds a lock on it. -/
def Compatible (p q : Pid) : Prop := calls p = .read ∧ calls q = .read

theorem Compatible.symm {calls : Pid → Call} {p q : Pid} (h : Compatible calls p q) :
    Compatible calls q p := And.symm h

/-- One step of one call. -/
inductive Step : System → System → Prop where
  | refuse {s : System} {p : Pid} : s.phase p = .ready → calls p = .append [] →
      Step s (s.set p (.returned (.error (.invalid "value log append must contain an event"))))
  /-- Only an append creates the file. -/
  | create {s : System} {p : Pid} {requested : List FunnelEvent} : s.phase p = .ready →
      calls p = .append requested → requested ≠ [] → s.path = none →
      Step s { s.set p (.opened s.files.length) with
        path := some s.files.length, files := s.files ++ [[]] }
  | open {s : System} {p : Pid} {file : Ino} : s.phase p = .ready → calls p ≠ .append [] →
      s.path = some file → Step s (s.set p (.opened file))
  | lock {s : System} {p : Pid} {file : Ino} : s.phase p = .opened file →
      (∀ q, q ≠ p → (s.phase q).lock? = some file → Compatible calls p q) →
      Step s (s.set p (.locked file))
  | confirm {s : System} {p : Pid} {file : Ino} : s.phase p = .locked file →
      s.path = some file → Step s (s.set p (.current file))
  | retry {s : System} {p : Pid} {file other : Ino} : s.phase p = .locked file →
      s.path = some other → other ≠ file → Step s (s.set p .ready)
  | load {s : System} {p : Pid} {file : Ino} {content : Bytes} : s.phase p = .current file →
      s.files[file]? = some content → Step s (s.set p (.loaded file (readable content)))
  | answer {s : System} {p : Pid} {file : Ino} {bytes : Bytes} :
      s.phase p = .loaded file bytes → calls p = .read →
      Step s (s.set p (.ended file ((readLocked codec bytes).map .log)))
  | reject {s : System} {p : Pid} {file : Ino} {bytes : Bytes} {requested : List FunnelEvent}
      {clock : Nat → Nat} {failure : Failure} : s.phase p = .loaded file bytes →
      calls p = .append requested → appendBatch codec clock bytes requested = .error failure →
      Step s (s.set p (.ended file (.error failure)))
  | repeated {s : System} {p : Pid} {file : Ino} {bytes : Bytes} {requested : List FunnelEvent}
      {clock : Nat → Nat} : s.phase p = .loaded file bytes → calls p = .append requested →
      appendBatch codec clock bytes requested = .ok none →
      Step s (s.set p (.ended file (.ok .appended)))
  | stage {s : System} {p : Pid} {file : Ino} {bytes replacement : Bytes}
      {requested : List FunnelEvent} {clock : Nat → Nat} : s.phase p = .loaded file bytes →
      calls p = .append requested →
      appendBatch codec clock bytes requested = .ok (some replacement) →
      Step s { s.set p (.staging file replacement s.files.length) with files := s.files ++ [[]] }
  /-- A write to the temporary file, which may stop short. -/
  | write {s : System} {p : Pid} {file temporary : Ino} {replacement : Bytes} (count : Nat) :
      s.phase p = .staging file replacement temporary →
      Step s { s with files := s.files.set temporary (replacement.take count) }
  | measure {s : System} {p : Pid} {file temporary : Ino} {replacement content : Bytes} :
      s.phase p = .staging file replacement temporary → s.files[temporary]? = some content →
      content.length = replacement.length →
      Step s (s.set p (.staged file replacement temporary))
  | recheck {s : System} {p : Pid} {file temporary : Ino} {replacement : Bytes} :
      s.phase p = .staged file replacement temporary → s.path = some file →
      Step s (s.set p (.checked file replacement temporary))
  | changed {s : System} {p : Pid} {file temporary : Ino} {replacement : Bytes} :
      s.phase p = .staged file replacement temporary → s.path ≠ some file →
      Step s (s.set p (.ended file
        (.error (.invalid "value log changed while its transaction was staged"))))
  | rename {s : System} {p : Pid} {file temporary : Ino} {replacement : Bytes} :
      s.phase p = .checked file replacement temporary →
      Step s { s.set p (.renamed file) with path := some temporary }
  /-- `sync_all` of the directory. -/
  | sync {s : System} {p : Pid} {file : Ino} : s.phase p = .renamed file →
      Step s (s.set p (.ended file (.ok .appended)))
  | unlock {s : System} {p : Pid} {file : Ino} {answer : Result Answer} :
      s.phase p = .ended file answer → Step s (s.set p (.returned answer))
  /-- The operating system refuses a request of a call that holds a lock. -/
  | fail {s : System} {p : Pid} {file : Ino} {failure : Failure} :
      (s.phase p).lock? = some file → (∀ answer, s.phase p ≠ .ended file answer) →
      Step s (s.set p (.ended file (.error failure)))
  /-- The operating system refuses a request of a call before it holds a lock. -/
  | refused {s : System} {p : Pid} {failure : Failure} :
      s.phase p = .ready ∨ (∃ file, s.phase p = .opened file) →
      Step s (s.set p (.returned (.error failure)))
  | crash {s : System} {p : Pid} : (∀ answer, s.phase p ≠ .returned answer) →
      Step s (s.set p .crashed)

/-- What runs reach. -/
inductive Steps : System → System → Prop where
  | refl (s : System) : Steps s s
  | step {s s' s'' : System} : Steps s s' → Step codec calls s' s'' → Steps s s''

/-- A content is the complete result of the batches of some calls, one after another. -/
inductive Replays (start : Bytes) : List Pid → Bytes → Prop where
  | nil : Replays start [] start
  | append {order : List Pid} {content content' : Bytes} {p : Pid} {requested : List FunnelEvent}
      {clock : Nat → Nat} : Replays start order content → calls p = .append requested →
      Appends codec clock content requested content' → Replays start (order ++ [p]) content'

variable {codec calls}

theorem Replays.kept {start content : Bytes} {order : List Pid}
    (replays : Replays codec calls start order content) :
    start <+: content ∧ ∀ p requested, p ∈ order → calls p = .append requested →
      ∀ event ∈ requested, Recorded codec event content := by
  induction replays with
  | nil => exact ⟨List.prefix_refl _, fun p requested member => absurd member List.not_mem_nil⟩
  | @append order content content' p requested clock _ asked appends ih =>
      obtain ⟨⟨more, grown⟩, here⟩ := appends.spec
      refine ⟨ih.1.trans ⟨more, grown⟩, ?_⟩
      intro q other member otherAsked event wanted
      obtain earlier | same := List.mem_append.mp member
      · exact grown ▸ (ih.2 q other earlier otherAsked event wanted).append more
      · obtain rfl := List.mem_singleton.mp same
        rw [asked] at otherAsked
        cases otherAsked
        exact here event wanted

/-! ## The invariant -/

/-- The content with which a call will replace a content. -/
def Replaces (codec : Codec) (calls : Pid → Call) (p : Pid) (content replacement : Bytes) : Prop :=
  ∃ requested clock, calls p = .append requested ∧
    appendBatch codec clock (readable content) requested = .ok (some replacement)

/-- What holds of a call in its phase, when the calls of `order` have taken effect. -/
def Sound (codec : Codec) (calls : Pid → Call) (s : System) (order : List Pid) (p : Pid) :
    Phase → Prop
  | .ready => p ∉ order
  | .opened _ => p ∉ order
  | .locked _ => p ∉ order
  | .current _ => p ∉ order
  | .loaded _ bytes => p ∉ order ∧ bytes = readable s.log
  | .staging _ replacement temporary => p ∉ order ∧ Replaces codec calls p s.log replacement ∧
      ∃ count, s.files[temporary]? = some (replacement.take count)
  | .staged _ replacement temporary => p ∉ order ∧ Replaces codec calls p s.log replacement ∧
      s.files[temporary]? = some replacement
  | .checked _ replacement temporary => p ∉ order ∧ Replaces codec calls p s.log replacement ∧
      s.files[temporary]? = some replacement
  | .renamed _ => p ∈ order
  | .ended _ answer => answer = .ok .appended → p ∈ order
  | .returned answer => answer = .ok .appended → p ∈ order
  | .crashed => True

/-- A phase of a call stays sound when others move. -/
theorem Sound.frame {s s' : System} {order order' : List Pid} {p : Pid} {phase : Phase}
    (sound : Sound codec calls s order p phase)
    (log : (∃ file, phase.current? = some file) → s'.log = s.log)
    (temporary : ∀ temporary, phase.temporary? = some temporary →
      s'.files[temporary]? = s.files[temporary]?)
    (ordered : p ∈ order' ↔ p ∈ order) : Sound codec calls s' order' p phase := by
  cases phase with
  | crashed => simp [Sound]
  | ready | opened _ | locked _ | current _ | renamed _ => simpa [Sound, ordered] using sound
  | ended _ _ | returned _ => simpa [Sound, ordered] using sound
  | loaded file bytes => simpa [Sound, ordered, log ⟨file, rfl⟩] using sound
  | staging file replacement place | staged file replacement place
  | checked file replacement place =>
      simpa [Sound, ordered, log ⟨file, rfl⟩, temporary place rfl] using sound

structure Inv (codec : Codec) (calls : Pid → Call) (start : Bytes) (order : List Pid)
    (s : System) : Prop where
  named : ∀ file, s.path = some file → file < s.files.length
  opened : ∀ p file, (s.phase p).file? = some file → file < s.files.length
  exclusive : ∀ p q file, p ≠ q → (s.phase p).lock? = some file → (s.phase q).lock? = some file →
    Compatible calls p q
  current : ∀ p file, (s.phase p).current? = some file → s.path = some file
  temporary : ∀ p place, (s.phase p).temporary? = some place → place < s.files.length ∧
    s.path ≠ some place ∧ (∀ q, (s.phase q).file? ≠ some place) ∧
      ∀ q, q ≠ p → (s.phase q).temporary? ≠ some place
  sound : ∀ p, Sound codec calls s order p (s.phase p)
  nodup : order.Nodup
  replays : Replays codec calls start order s.log

namespace Phase

theorem file?_of_lock? {phase : Phase} {file : Ino} (h : phase.lock? = some file) :
    phase.file? = some file := by
  cases phase <;> simp_all [lock?, file?]

theorem lock?_of_current? {phase : Phase} {file : Ino} (h : phase.current? = some file) :
    phase.lock? = some file := by
  cases phase <;> simp_all [lock?, file?, current?]

end Phase

namespace Inv

variable {start : Bytes} {order order' : List Pid} {s : System} {p : Pid} {phase' : Phase}

theorem initial (content : Option Bytes) :
    Inv codec calls (content.getD []) [] (System.initial content) := by
  have nothing : (System.initial content).phase = fun _ => .ready := by cases content <;> rfl
  constructor
  · cases content <;> simp [System.initial]
  · simp [nothing, Phase.file?]
  · simp [nothing, Phase.lock?, Phase.file?]
  · simp [nothing, Phase.current?]
  · simp [nothing, Phase.temporary?]
  · simp [nothing, Sound]
  · exact List.nodup_nil
  · cases content <;> exact .nil

/-- The content of the log is the file of a call that has seen it to be the log. -/
theorem log_eq (inv : Inv codec calls start order s) {file : Ino} {content : Bytes}
    (here : (s.phase p).current? = some file) (found : s.files[file]? = some content) :
    s.log = content := by
  rw [System.log, inv.current p file here, Option.bind_some, found]
  rfl

/-- The locks after a step of a call. -/
theorem exclusive_set (inv : Inv codec calls start order s)
    (lock : ∀ file, phase'.lock? = some file → ∀ q, q ≠ p → (s.phase q).lock? = some file →
      Compatible calls p q)
    {q₁ q₂ : Pid} {file : Ino} (different : q₁ ≠ q₂)
    (held₁ : ((s.set p phase').phase q₁).lock? = some file)
    (held₂ : ((s.set p phase').phase q₂).lock? = some file) : Compatible calls q₁ q₂ := by
  by_cases first : q₁ = p
  · subst first
    rw [System.set_phase_self] at held₁
    rw [System.set_phase_of_ne s phase' different.symm] at held₂
    exact lock file held₁ q₂ different.symm held₂
  · rw [System.set_phase_of_ne s phase' first] at held₁
    by_cases second : q₂ = p
    · subst second
      rw [System.set_phase_self] at held₂
      exact (lock file held₂ q₁ different held₁).symm
    · rw [System.set_phase_of_ne s phase' second] at held₂
      exact inv.exclusive q₁ q₂ file different held₁ held₂

/-- A step of a call that leaves all files and the path as they are. -/
theorem move (inv : Inv codec calls start order s)
    (file : ∀ file, phase'.file? = some file → (s.phase p).file? = some file ∨ s.path = some file)
    (lock : ∀ file, phase'.lock? = some file → ∀ q, q ≠ p → (s.phase q).lock? = some file →
      Compatible calls p q)
    (current : ∀ file, phase'.current? = some file → s.path = some file)
    (temporary : ∀ place, phase'.temporary? = some place → (s.phase p).temporary? = some place)
    (sound : Sound codec calls s order' p phase')
    (ordered : ∀ q, q ≠ p → (q ∈ order' ↔ q ∈ order)) (nodup : order'.Nodup)
    (replays : Replays codec calls start order' s.log) :
    Inv codec calls start order' (s.set p phase') where
  named := inv.named
  opened := by
    refine (Function.forall_update_iff s.phase fun q phase => ∀ file, phase.file? = some file →
      file < s.files.length).mpr ⟨?_, fun q _ => inv.opened q⟩
    intro here found
    exact (file here found).elim (inv.opened p here) (inv.named here)
  exclusive _ _ _ := inv.exclusive_set lock
  current := (Function.forall_update_iff s.phase fun q phase => ∀ file,
    phase.current? = some file → s.path = some file).mpr ⟨current, fun q _ => inv.current q⟩
  temporary := by
    -- Each temporary file was one of the same call before.
    have before : ∀ q place, ((s.set p phase').phase q).temporary? = some place →
        (s.phase q).temporary? = some place :=
      (Function.forall_update_iff s.phase fun q phase => ∀ place, phase.temporary? = some place →
        (s.phase q).temporary? = some place).mpr ⟨temporary, fun q _ place h => h⟩
    intro q place found
    obtain ⟨there, notPath, notFile, notOther⟩ := inv.temporary q place (before q place found)
    refine ⟨there, notPath, ?_, fun q' different other => notOther q' different
      (before q' place other)⟩
    refine (Function.forall_update_iff s.phase fun _ phase => phase.file? ≠ some place).mpr
      ⟨fun mine => ?_, fun q' _ => notFile q'⟩
    exact (file place mine).elim (notFile p) notPath
  sound := (Function.forall_update_iff s.phase fun q phase =>
    Sound codec calls (s.set p phase') order' q phase).mpr
      ⟨sound.frame (fun _ => rfl) (fun _ _ => rfl) Iff.rfl,
        fun q different => (inv.sound q).frame (fun _ => rfl) (fun _ _ => rfl)
          (ordered q different)⟩
  nodup := nodup
  replays := replays

/-- A step of a call that takes no effect, on the files it has open. -/
theorem quiet (inv : Inv codec calls start order s)
    (file : ∀ file, phase'.file? = some file → (s.phase p).file? = some file)
    (lock : ∀ file, phase'.lock? = some file → (s.phase p).lock? = some file)
    (current : ∀ file, phase'.current? = some file → s.path = some file)
    (temporary : ∀ place, phase'.temporary? = some place → (s.phase p).temporary? = some place)
    (sound : Sound codec calls s order p phase') :
    Inv codec calls start order (s.set p phase') :=
  inv.move (fun here found => .inl (file here found))
    (fun here held q different other => inv.exclusive p q here different.symm (lock here held)
      other)
    current temporary sound (fun _ _ => Iff.rfl) inv.nodup inv.replays

/-- What is in a file does not change when another is created. -/
theorem log_create {path : Option Ino} {phase : Pid → Phase}
    (named : ∀ file, path = some file → file < s.files.length) :
    System.log ⟨path, s.files ++ [[]], phase⟩ = System.log ⟨path, s.files, phase⟩ := by
  cases path with
  | none => rfl
  | some file => simp only [System.log, Option.bind_some,
      List.getElem?_append_left (named file rfl)]

theorem create (inv : Inv codec calls start order s) (ready : s.phase p = .ready)
    (none : s.path = none) :
    Inv codec calls start order { s.set p (.opened s.files.length) with
      path := some s.files.length, files := s.files ++ [[]] } := by
  have empty : s.log = [] := by rw [System.log, none]; rfl
  have log : System.log { s.set p (.opened s.files.length) with
      path := some s.files.length, files := s.files ++ [[]] } = s.log := by
    rw [empty, System.log]
    simp
  have grown : s.files.length < (s.files ++ [[]]).length := by simp
  have notOrdered : p ∉ order := by simpa [ready, Sound] using inv.sound p
  constructor
  · rintro _ ⟨⟩
    exact grown
  · refine (Function.forall_update_iff s.phase fun q phase => ∀ file, phase.file? = some file →
      file < (s.files ++ [[]]).length).mpr ⟨?_, ?_⟩
    · rintro _ ⟨⟩
      exact grown
    · exact fun q _ file found => (inv.opened q file found).trans grown
  · intro q₁ q₂ file
    exact inv.exclusive_set fun _ held => by cases held
  · refine (Function.forall_update_iff s.phase fun q phase => ∀ file,
      phase.current? = some file → some s.files.length = some file).mpr ⟨?_, ?_⟩
    · intro file found
      cases found
    · intro q _ file found
      have := inv.current q file found
      rw [none] at this
      cases this
  · refine (Function.forall_update_iff s.phase fun q phase => ∀ place,
      phase.temporary? = some place →
      place < (s.files ++ [[]]).length ∧ some s.files.length ≠ some place ∧
        (∀ q', ((s.set p (.opened s.files.length)).phase q').file? ≠ some place) ∧ ∀ q', q' ≠ q →
          ((s.set p (.opened s.files.length)).phase q').temporary? ≠ some place).mpr ⟨?_, ?_⟩
    · intro place found
      cases found
    · intro q _ place found
      obtain ⟨there, _, notFile, notOther⟩ := inv.temporary q place found
      have fresh : s.files.length ≠ place := there.ne'
      refine ⟨there.trans grown, by simpa using fresh, ?_, ?_⟩
      · exact (Function.forall_update_iff s.phase fun _ phase => phase.file? ≠ some place).mpr
          ⟨by simpa [Phase.file?] using fresh, fun q' _ => notFile q'⟩
      · exact (Function.forall_update_iff s.phase fun q' phase => q' ≠ q →
          phase.temporary? ≠ some place).mpr
            ⟨fun _ => by simp [Phase.temporary?], fun q' _ => notOther q'⟩
  · refine (Function.forall_update_iff s.phase fun q phase =>
      Sound codec calls _ order q phase).mpr ⟨notOrdered, ?_⟩
    intro q _
    refine (inv.sound q).frame (fun _ => log) ?_ Iff.rfl
    intro place found
    exact List.getElem?_append_left (inv.temporary q place found).1
  · exact inv.nodup
  · exact log ▸ inv.replays

theorem stage (inv : Inv codec calls start order s) {file : Ino} {bytes replacement : Bytes}
    (loaded : s.phase p = .loaded file bytes) {requested : List FunnelEvent} {clock : Nat → Nat}
    (asked : calls p = .append requested)
    (built : appendBatch codec clock bytes requested = .ok (some replacement)) :
    Inv codec calls start order
      { s.set p (.staging file replacement s.files.length) with files := s.files ++ [[]] } := by
  have log : System.log { s.set p (.staging file replacement s.files.length) with
      files := s.files ++ [[]] } = s.log := log_create (s := s) inv.named
  have here : file < s.files.length := inv.opened p file (by rw [loaded]; rfl)
  have grown : s.files.length < (s.files ++ [[]]).length := by simp
  obtain ⟨notOrdered, read⟩ : p ∉ order ∧ bytes = readable s.log := by
    simpa [loaded, Sound] using inv.sound p
  constructor
  · exact fun file found => (inv.named file found).trans grown
  · refine (Function.forall_update_iff s.phase fun q phase => ∀ file, phase.file? = some file →
      file < (s.files ++ [[]]).length).mpr ⟨?_, ?_⟩
    · rintro _ ⟨⟩
      exact here.trans grown
    · exact fun q _ file found => (inv.opened q file found).trans grown
  · intro q₁ q₂ file
    refine inv.exclusive_set ?_
    rintro _ ⟨⟩ q different held
    exact inv.exclusive p q _ different.symm (by rw [loaded]; rfl) held
  · refine (Function.forall_update_iff s.phase fun q phase => ∀ file,
      phase.current? = some file → s.path = some file).mpr ⟨?_, fun q _ => inv.current q⟩
    rintro _ ⟨⟩
    exact inv.current p file (by rw [loaded]; rfl)
  · refine (Function.forall_update_iff s.phase fun q phase => ∀ place,
      phase.temporary? = some place →
      place < (s.files ++ [[]]).length ∧ s.path ≠ some place ∧
        (∀ q', ((s.set p (.staging file replacement s.files.length)).phase q').file? ≠ some place) ∧
          ∀ q', q' ≠ q →
            ((s.set p (.staging file replacement s.files.length)).phase q').temporary? ≠
            some place).mpr ⟨?_, ?_⟩
    · rintro _ ⟨⟩
      refine ⟨grown, fun found => Nat.lt_irrefl _ (inv.named _ found), ?_, ?_⟩
      · refine (Function.forall_update_iff s.phase fun _ phase =>
          phase.file? ≠ some s.files.length).mpr ⟨?_, ?_⟩
        · simpa [Phase.file?] using here.ne
        · exact fun q _ found => Nat.lt_irrefl _ (inv.opened q _ found)
      · intro q different found
        rw [System.set_phase_of_ne s _ different] at found
        exact Nat.lt_irrefl _ (inv.temporary q _ found).1
    · intro q _ place found
      obtain ⟨there, notPath, notFile, notOther⟩ := inv.temporary q place found
      refine ⟨there.trans grown, notPath, ?_, ?_⟩
      · refine (Function.forall_update_iff s.phase fun _ phase =>
          phase.file? ≠ some place).mpr ⟨?_, fun q' _ => notFile q'⟩
        have := notFile p
        rw [loaded] at this
        exact this
      · refine (Function.forall_update_iff s.phase fun q' phase => q' ≠ q →
          phase.temporary? ≠ some place).mpr ⟨?_, fun q' _ => notOther q'⟩
        simpa [Phase.temporary?] using fun _ : p ≠ q => there.ne'
  · refine (Function.forall_update_iff s.phase fun q phase =>
      Sound codec calls _ order q phase).mpr ⟨⟨notOrdered, ?_, 0, ?_⟩, ?_⟩
    · rw [log]
      exact ⟨requested, clock, asked, read ▸ built⟩
    · simp
    · intro q _
      refine (inv.sound q).frame (fun _ => log) ?_ Iff.rfl
      intro place found
      exact List.getElem?_append_left (inv.temporary q place found).1
  · exact inv.nodup
  · exact log ▸ inv.replays

theorem write (inv : Inv codec calls start order s) {file place : Ino} {replacement : Bytes}
    (staging : s.phase p = .staging file replacement place) (count : Nat) :
    Inv codec calls start order
      { s with files := s.files.set place (replacement.take count) } := by
  have mine : (s.phase p).temporary? = some place := by rw [staging]; rfl
  obtain ⟨there, notPath, notFile, notOther⟩ := inv.temporary p place mine
  have log : System.log { s with files := s.files.set place (replacement.take count) } = s.log := by
    rw [System.log, System.log]
    cases path : s.path with
    | none => rfl
    | some named =>
        have different : place ≠ named := fun same => notPath (same ▸ path)
        simp only [Option.bind_some, List.getElem?_set_ne different]
  constructor
  · simpa using inv.named
  · simpa using inv.opened
  · exact inv.exclusive
  · exact inv.current
  · simpa using inv.temporary
  · intro q
    by_cases same : q = p
    · subst same
      have sound := inv.sound q
      rw [staging] at sound
      show Sound codec calls _ order q (s.phase q)
      rw [staging]
      refine ⟨sound.1, ?_, count, ?_⟩
      · rw [log]
        exact sound.2.1
      · simp [there]
    · refine (inv.sound q).frame (fun _ => log) ?_ Iff.rfl
      intro other found
      refine List.getElem?_set_ne ?_
      rintro rfl
      exact notOther q same found
  · exact inv.nodup
  · exact log ▸ inv.replays

/-- The rename is where an append takes effect. -/
theorem rename (inv : Inv codec calls start order s) {file place : Ino} {replacement : Bytes}
    (checked : s.phase p = .checked file replacement place) :
    Inv codec calls start (order ++ [p]) { s.set p (.renamed file) with path := some place } := by
  have mine : (s.phase p).temporary? = some place := by rw [checked]; rfl
  have here : (s.phase p).current? = some file := by rw [checked]; rfl
  obtain ⟨there, notPath, notFile, notOther⟩ := inv.temporary p place mine
  obtain ⟨notOrdered, ⟨requested, clock, asked, built⟩, content⟩ : p ∉ order ∧
      Replaces codec calls p s.log replacement ∧ s.files[place]? = some replacement := by
    simpa [checked, Sound] using inv.sound p
  -- Nobody else has seen the file that is replaced to be the log.
  have alone : ∀ q, q ≠ p → (s.phase q).current? = none := by
    intro q different
    cases found : (s.phase q).current? with
    | none => rfl
    | some other =>
        have same : other = file :=
          Option.some.inj ((inv.current q other found).symm.trans (inv.current p file here))
        subst same
        have shared := inv.exclusive p q other different.symm (Phase.lock?_of_current? here)
          (Phase.lock?_of_current? found)
        rw [shared.1] at asked
        cases asked
  have log : System.log { s.set p (.renamed file) with path := some place } = replacement := by
    rw [System.log]
    simp [System.set, content]
  constructor
  · rintro _ ⟨⟩
    exact there
  · refine (Function.forall_update_iff s.phase fun q phase => ∀ file, phase.file? = some file →
      file < s.files.length).mpr ⟨?_, fun q _ => inv.opened q⟩
    rintro _ ⟨⟩
    exact inv.opened p file (by rw [checked]; rfl)
  · intro q₁ q₂ other
    refine inv.exclusive_set ?_
    rintro _ ⟨⟩ q different held
    exact inv.exclusive p q _ different.symm (Phase.lock?_of_current? here) held
  · refine (Function.forall_update_iff s.phase fun q phase => ∀ file,
      phase.current? = some file → some place = some file).mpr ⟨?_, ?_⟩
    · intro _ found
      cases found
    · intro q different other found
      rw [alone q different] at found
      cases found
  · refine (Function.forall_update_iff s.phase fun q phase => ∀ other,
      phase.temporary? = some other →
      other < s.files.length ∧ some place ≠ some other ∧
        (∀ q', ((s.set p (.renamed file)).phase q').file? ≠ some other) ∧ ∀ q', q' ≠ q →
          ((s.set p (.renamed file)).phase q').temporary? ≠ some other).mpr ⟨?_, ?_⟩
    · intro _ found
      cases found
    · intro q different other found
      obtain ⟨there', notPath', notFile', notOther'⟩ := inv.temporary q other found
      refine ⟨there', ?_, ?_, ?_⟩
      · rintro ⟨⟩
        exact notOther q different found
      · refine (Function.forall_update_iff s.phase fun _ phase =>
          phase.file? ≠ some other).mpr ⟨?_, fun q' _ => notFile' q'⟩
        have := notFile' p
        rw [checked] at this
        exact this
      · exact (Function.forall_update_iff s.phase fun q' phase => q' ≠ q →
          phase.temporary? ≠ some other).mpr
            ⟨fun _ => by simp [Phase.temporary?], fun q' _ => notOther' q'⟩
  · refine (Function.forall_update_iff s.phase fun q phase =>
      Sound codec calls _ (order ++ [p]) q phase).mpr ⟨by simp [Sound], ?_⟩
    intro q different
    refine (inv.sound q).frame ?_ (fun _ _ => rfl) (by simp [different])
    rintro ⟨other, found⟩
    rw [alone q different] at found
    cases found
  · simpa using List.Nodup.concat notOrdered inv.nodup
  · rw [log]
    exact .append inv.replays asked ⟨some replacement, built, rfl⟩

/-- A step keeps the invariant, and what has taken effect stays. -/
theorem step {s' : System} (inv : Inv codec calls start order s)
    (step : Step codec calls s s') :
    ∃ order', order <+: order' ∧ Inv codec calls start order' s' := by
  cases step with
  | refuse ready _ =>
      exact ⟨order, List.prefix_refl _, inv.quiet (by simp [Phase.file?])
        (by simp [Phase.lock?, Phase.file?]) (by simp [Phase.current?]) (by simp [Phase.temporary?])
        (by simp [Sound])⟩
  | create ready _ _ none => exact ⟨order, List.prefix_refl _, inv.create ready none⟩
  | @«open» p file ready _ path =>
      have notOrdered : p ∉ order := by simpa [ready, Sound] using inv.sound p
      refine ⟨order, List.prefix_refl _,
        inv.move ?_ (by simp [Phase.lock?]) (by simp [Phase.current?])
        (by simp [Phase.temporary?]) notOrdered (fun _ _ => Iff.rfl) inv.nodup inv.replays⟩
      rintro _ ⟨⟩
      exact .inr path
  | @lock p file opened free =>
      have notOrdered : p ∉ order := by simpa [opened, Sound] using inv.sound p
      refine ⟨order, List.prefix_refl _, inv.move ?_ ?_ (by simp [Phase.current?])
        (by simp [Phase.temporary?]) notOrdered (fun _ _ => Iff.rfl) inv.nodup inv.replays⟩
      · rintro _ ⟨⟩
        exact .inl (by rw [opened]; rfl)
      · rintro _ ⟨⟩
        exact free
  | @confirm p file locked path =>
      have notOrdered : p ∉ order := by simpa [locked, Sound] using inv.sound p
      exact ⟨order, List.prefix_refl _, inv.quiet (by simp [locked, Phase.file?])
        (by simp [locked, Phase.lock?, Phase.file?]) (by simp [path, Phase.current?])
        (by simp [Phase.temporary?]) notOrdered⟩
  | @retry p file other locked _ _ =>
      have notOrdered : p ∉ order := by simpa [locked, Sound] using inv.sound p
      exact ⟨order, List.prefix_refl _, inv.quiet (by simp [Phase.file?])
        (by simp [Phase.lock?, Phase.file?]) (by simp [Phase.current?]) (by simp [Phase.temporary?])
        notOrdered⟩
  | @load p file content current found =>
      have here : (s.phase p).current? = some file := by rw [current]; rfl
      have notOrdered : p ∉ order := by simpa [current, Sound] using inv.sound p
      exact ⟨order, List.prefix_refl _, inv.quiet (by simp [current, Phase.file?])
        (by simp [current, Phase.lock?, Phase.file?])
        (by simp [Phase.current?, inv.current p file here]) (by simp [Phase.temporary?])
        ⟨notOrdered, by rw [inv.log_eq here found]⟩⟩
  | @answer p file bytes loaded _ =>
      refine ⟨order, List.prefix_refl _, inv.quiet (by simp [loaded, Phase.file?])
        (by simp [loaded, Phase.lock?, Phase.file?]) (by simp [Phase.current?])
        (by simp [Phase.temporary?]) ?_⟩
      intro answered
      cases read : readLocked codec bytes <;> simp [read, Except.map] at answered
  | @reject p file bytes requested clock failure loaded _ _ =>
      exact ⟨order, List.prefix_refl _, inv.quiet (by simp [loaded, Phase.file?])
        (by simp [loaded, Phase.lock?, Phase.file?]) (by simp [Phase.current?])
        (by simp [Phase.temporary?]) (by simp [Sound])⟩
  | @repeated p file bytes requested clock loaded asked unchanged =>
      obtain ⟨notOrdered, rfl⟩ : p ∉ order ∧ bytes = readable s.log := by
        simpa [loaded, Sound] using inv.sound p
      refine ⟨order ++ [p], List.prefix_append _ _, inv.move (by simp [loaded, Phase.file?]) ?_
        (by simp [Phase.current?]) (by simp [Phase.temporary?]) (by simp [Sound])
        (fun q different => by simp [different])
        (by simpa using List.Nodup.concat notOrdered inv.nodup)
        (.append inv.replays asked ⟨none, unchanged, rfl⟩)⟩
      rintro _ ⟨⟩ q different held
      exact inv.exclusive p q _ different.symm (by rw [loaded]; rfl) held
  | stage loaded asked built => exact ⟨order, List.prefix_refl _, inv.stage loaded asked built⟩
  | write count staging => exact ⟨order, List.prefix_refl _, inv.write staging count⟩
  | @measure p file place replacement content staging found length =>
      obtain ⟨notOrdered, replaces, count, written⟩ : p ∉ order ∧
          Replaces codec calls p s.log replacement ∧
            ∃ count, s.files[place]? = some (replacement.take count) := by
        simpa [staging, Sound] using inv.sound p
      -- A part of the replacement that is as long as the replacement is all of it.
      have all : content = replacement := by
        rw [found, Option.some.injEq] at written
        rw [written, List.length_take] at length
        rw [written, List.take_of_length_le (by omega)]
      exact ⟨order, List.prefix_refl _, inv.quiet (by simp [staging, Phase.file?])
        (by simp [staging, Phase.lock?, Phase.file?])
        (by simp [Phase.current?, inv.current p file (by rw [staging]; rfl)])
        (by simp [staging, Phase.temporary?]) ⟨notOrdered, replaces, all ▸ found⟩⟩
  | @recheck p file place replacement staged path =>
      have sound := inv.sound p
      rw [staged] at sound
      exact ⟨order, List.prefix_refl _, inv.quiet (by simp [staged, Phase.file?])
        (by simp [staged, Phase.lock?, Phase.file?]) (by simp [path, Phase.current?])
        (by simp [staged, Phase.temporary?]) sound⟩
  | @changed p file place replacement staged _ =>
      exact ⟨order, List.prefix_refl _, inv.quiet (by simp [staged, Phase.file?])
        (by simp [staged, Phase.lock?, Phase.file?]) (by simp [Phase.current?])
        (by simp [Phase.temporary?]) (by simp [Sound])⟩
  | rename checked => exact ⟨order ++ [_], List.prefix_append _ _, inv.rename checked⟩
  | @sync p file renamed =>
      have ordered : p ∈ order := by simpa [renamed, Sound] using inv.sound p
      exact ⟨order, List.prefix_refl _, inv.quiet (by simp [renamed, Phase.file?])
        (by simp [renamed, Phase.lock?, Phase.file?]) (by simp [Phase.current?])
        (by simp [Phase.temporary?]) fun _ => ordered⟩
  | @unlock p file answer ended =>
      have sound := inv.sound p
      rw [ended] at sound
      exact ⟨order, List.prefix_refl _, inv.quiet (by simp [Phase.file?])
        (by simp [Phase.lock?, Phase.file?]) (by simp [Phase.current?]) (by simp [Phase.temporary?])
        sound⟩
  | @fail p file failure held _ =>
      refine ⟨order, List.prefix_refl _, inv.quiet ?_ ?_ (by simp [Phase.current?])
        (by simp [Phase.temporary?]) (by simp [Sound])⟩
      · rintro _ ⟨⟩
        exact Phase.file?_of_lock? held
      · rintro _ ⟨⟩
        exact held
  | refused _ =>
      exact ⟨order, List.prefix_refl _, inv.quiet (by simp [Phase.file?])
        (by simp [Phase.lock?, Phase.file?]) (by simp [Phase.current?]) (by simp [Phase.temporary?])
        (by simp [Sound])⟩
  | crash _ =>
      exact ⟨order, List.prefix_refl _, inv.quiet (by simp [Phase.file?])
        (by simp [Phase.lock?, Phase.file?]) (by simp [Phase.current?]) (by simp [Phase.temporary?])
        trivial⟩

theorem run {s s' : System} (inv : Inv codec calls start order s)
    (run : Steps codec calls s s') :
    ∃ order', order <+: order' ∧ Inv codec calls start order' s' := by
  induction run with
  | refl => exact ⟨order, List.prefix_refl _, inv⟩
  | step _ step ih =>
      obtain ⟨order', grown, inv'⟩ := ih
      obtain ⟨order'', grown', inv''⟩ := inv'.step step
      exact ⟨order'', grown.trans grown', inv''⟩

end Inv

/-- The content of the log is at every moment the complete result of a sequence of whole
batches; an append that returned success is in that sequence, and later contents extend
the sequence and record each event of the append. -/
theorem successful_appends_kept {content : Option Bytes} {s s' : System}
    (reached : Steps codec calls (System.initial content) s) (later : Steps codec calls s s') :
    ∃ order order', order <+: order' ∧ order'.Nodup ∧
      Replays codec calls (content.getD []) order s.log ∧
      Replays codec calls (content.getD []) order' s'.log ∧
      ∀ p requested, calls p = .append requested → s.phase p = .returned (.ok .appended) →
        p ∈ order ∧ ∀ event ∈ requested, Recorded codec event s'.log := by
  obtain ⟨order, _, inv⟩ := (Inv.initial content).run reached
  obtain ⟨order', grown, inv'⟩ := inv.run later
  refine ⟨order, order', grown, inv'.nodup, inv.replays, inv'.replays, ?_⟩
  intro p requested asked returned
  have ordered : p ∈ order := by
    have sound := inv.sound p
    rw [returned] at sound
    exact sound rfl
  exact ⟨ordered, inv'.replays.kept.2 p requested (grown.subset ordered) asked⟩

namespace Sample

def event : FunnelEvent := .baseline zeroSha256 0 0 true

/-- The members of a stored baseline, as `serde_json` writes them. -/
def members (unsigned : UnsignedEvent) : String :=
  "\"schema\":\"" ++ unsigned.schema ++ "\",\"tool_version\":\"" ++ unsigned.toolVersion ++
    "\",\"sequence\":" ++ toString unsigned.sequence ++ ",\"observed_at_unix_seconds\":" ++
    toString unsigned.observedAtUnixSeconds ++ ",\"event_id\":\"" ++ unsigned.eventId ++
    "\",\"previous_event_sha256\":\"" ++ unsigned.previousEventSha256 ++
    "\",\"kind\":\"baseline\",\"payload\":\x7b\"scan_id\":\"" ++ unsigned.event.businessKey ++
    "\",\"inspected_candidates\":0,\"completed_review_prs\":0,\"collection_complete\":true\x7d"

def serde : Codec where
  toVec stored := utf8Bytes ("\x7b" ++ members stored.toUnsignedEvent ++ ",\"event_sha256\":\"" ++
    stored.eventSha256 ++ "\"\x7d")
  unsignedToVec unsigned := utf8Bytes ("\x7b" ++ members unsigned ++ "\x7d")
  fromSlice _ := .error "expected value"
  -- The two digests that the append of the baseline to an empty log needs.
  sha256 bytes := if bytes = utf8Bytes ("baseline\x00" ++ zeroSha256) then
    [55, 164, 104, 31, 182, 123, 123, 154, 190, 66, 28, 25, 129, 208, 100, 53,
      171, 67, 23, 103, 76, 57, 249, 80, 250, 55, 39, 0, 20, 107, 180, 162]
    else
    [72, 237, 15, 198, 197, 235, 108, 133, 209, 242, 12, 66, 217, 20, 202, 191,
      62, 204, 178, 144, 157, 121, 191, 159, 213, 149, 186, 65, 52, 229, 187, 48]

def requests : Pid → Call := fun _ => .append [event]

def clock : Nat → Nat := fun _ => 1700000000

def replacement : Bytes := serde.toVec (nextEvent serde .empty event 1700000000) ++ [newline]

theorem built : appendBatch serde clock (readable []) [event] = .ok (some replacement) := by
  decide +kernel

/-- Two calls. -/
def state (path : Option Ino) (files : List Bytes) (first second : Phase) : System :=
  ⟨path, files, Function.update (Function.update (fun _ => .ready) 0 first) 1 second⟩

section

variable {path path' : Option Ino} {files files' : List Bytes} {first second phase : Phase}
variable {s : System}

theorem set_first :
    (state path files first second).set 0 phase = state path files phase second := by
  simp [state, System.set, Function.update_comm]

theorem set_second :
    (state path files first second).set 1 phase = state path files first phase := by
  simp [state, System.set]

/-- A step of the first call. -/
theorem first_step (run : Steps serde requests s (state path files first second))
    (step : Step serde requests (state path files first second)
      { (state path files first second).set 0 phase with path := path', files := files' }) :
    Steps serde requests s (state path' files' phase second) := by
  rw [set_first] at step
  exact run.step step

/-- A step of the second call. -/
theorem second_step (run : Steps serde requests s (state path files first second))
    (step : Step serde requests (state path files first second)
      { (state path files first second).set 1 phase with path := path', files := files' }) :
    Steps serde requests s (state path' files' first phase) := by
  rw [set_second] at step
  exact run.step step

end

/-- The first call appends while the second has the file open that the first replaces. -/
theorem appended : Steps serde requests (System.initial none)
    (state (some 1) [[], replacement] (.returned (.ok .appended)) (.opened 0)) := by
  have start : System.initial none = state none [] .ready .ready := by
    simp [System.initial, state]
  rw [start]
  have created : Steps serde requests (state none [] .ready .ready)
      (state (some 0) [[]] (.opened 0) .ready) :=
    first_step (.refl _) (.create rfl rfl (List.cons_ne_nil event []) rfl)
  have opened : Steps serde requests _ (state (some 0) [[]] (.opened 0) (.opened 0)) :=
    second_step created (.open rfl (by simp [requests]) rfl)
  have locked : Steps serde requests (state none [] .ready .ready)
      (state (some 0) [[]] (.locked 0) (.opened 0)) := by
    refine first_step opened (.lock rfl ?_)
    intro q different held
    by_cases second : q = 1
    · subst second
      cases held
    · simp [state, different, second, Phase.lock?, Phase.file?] at held
  have current : Steps serde requests _ (state (some 0) [[]] (.current 0) (.opened 0)) :=
    first_step locked (.confirm rfl rfl)
  have loaded :
      Steps serde requests _ (state (some 0) [[]] (.loaded 0 (readable [])) (.opened 0)) :=
    first_step current (.load rfl rfl)
  have staged : Steps serde requests _
      (state (some 0) [[], []] (.staging 0 replacement 1) (.opened 0)) :=
    first_step loaded (.stage rfl rfl built)
  have written : Steps serde requests (state none [] .ready .ready)
      (state (some 0) [[], replacement] (.staging 0 replacement 1) (.opened 0)) := by
    have phase : (state (some 0) [[], []] (.staging 0 replacement 1) (.opened 0)).phase 0 =
        .staging 0 replacement 1 := rfl
    have step := staged.step (.write replacement.length phase)
    rw [List.take_length] at step
    exact step
  have measured : Steps serde requests _
      (state (some 0) [[], replacement] (.staged 0 replacement 1) (.opened 0)) :=
    first_step written (.measure rfl rfl rfl)
  have checked : Steps serde requests _
      (state (some 0) [[], replacement] (.checked 0 replacement 1) (.opened 0)) :=
    first_step measured (.recheck rfl rfl)
  have renamed : Steps serde requests _
      (state (some 1) [[], replacement] (.renamed 0) (.opened 0)) :=
    first_step checked (.rename rfl)
  have synced : Steps serde requests _
      (state (some 1) [[], replacement] (.ended 0 (.ok .appended)) (.opened 0)) :=
    first_step renamed (.sync rfl)
  exact first_step synced (.unlock rfl)

/-- The second call gets the lock of a file that is not the log any more, and tries again. -/
theorem retried : Steps serde requests
    (state (some 1) [[], replacement] (.returned (.ok .appended)) (.opened 0))
    (state (some 1) [[], replacement] (.returned (.ok .appended)) .ready) := by
  have locked : Steps serde requests
      (state (some 1) [[], replacement] (.returned (.ok .appended)) (.opened 0))
      (state (some 1) [[], replacement] (.returned (.ok .appended)) (.locked 0)) := by
    refine second_step (.refl _) (.lock rfl ?_)
    intro q different held
    by_cases first : q = 0
    · subst first
      cases held
    · simp [state, different, first, Phase.lock?, Phase.file?] at held
  exact second_step locked (.retry rfl rfl (by decide))

end Sample

theorem successful_appends_kept_sample : Recorded Sample.serde Sample.event Sample.replacement := by
  obtain ⟨_, _, _, _, _, _, kept⟩ := successful_appends_kept Sample.appended Sample.retried
  exact (kept 0 [Sample.event] rfl rfl).2 Sample.event (by simp)

end Stratadiff.Value
