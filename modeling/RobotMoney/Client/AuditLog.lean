import RobotMoney.Lib.Hex
import RobotMoney.Lib.Rolling

/-!
# The audit log on disk

`AuditSink`: a line is appended to `audit.log`, and a file that has grown past the limit is rolled, so that
`audit.log.1` is the one before it and `audit.log.K` the oldest kept.  The process that has the sink open is
the only one that writes, and no operation on the files fails.

Read from the oldest to the newest, the files are a suffix of the lines written, whatever the limit and the
lines (`audit_keeps_suffix`).
-/

namespace RobotMoney.Client

open RobotMoney.Lib Directory

/-- `AUDIT_LOG_FILENAME` -/
def auditLogFilename : String := "audit.log"

/-- `audit.log`, and `format!("{stem}.{i}")` -/
def auditFile : ℕ → String
  | 0 => auditLogFilename
  | i + 1 => auditLogFilename ++ "." ++ (i + 1).repr

structure AuditSink where
  rotateSizeBytes : ℕ
  keepFiles : ℕ

abbrev LogDir : Type := Directory String String

/-- `AuditSink::open` -/
def AuditSink.open (rotateSizeMb keepFiles : ℕ) (d : LogDir) : AuditSink × LogDir :=
  (⟨rotateSizeMb * 1024 * 1024, keepFiles⟩, create "" (auditFile 0) d)

/-- `rotate` -/
def AuditSink.rotate (sink : AuditSink) (d : LogDir) : LogDir :=
  if 0 < sink.keepFiles then
    let d := remove (auditFile sink.keepFiles) d
    -- for i in (1..keep_files).rev()
    let d := shift auditFile (sink.keepFiles - 1) d
    let d := rename (auditFile 0) (auditFile 1) d
    create "" (auditFile 0) d
  else create "" (auditFile 0) (remove (auditFile 0) d)

/-- `write_line` -/
def AuditSink.writeLine (sink : AuditSink) (line : String) (d : LogDir) : LogDir :=
  let d := modify (· ++ (line ++ "\n")) (auditFile 0) d
  match d (auditFile 0) with
  | some content => if sink.rotateSizeBytes < content.utf8ByteSize then sink.rotate d else d
  | none => d

section

variable (sink : AuditSink)

/-- The files after a sequence of lines, from a directory that was empty. -/
def AuditSink.written (lines : List String) : LogDir :=
  lines.foldl (fun d line => sink.writeLine line d) (create "" (auditFile 0) fun _ => none)

/-- The files read from the oldest to the newest, those missing skipped. -/
def AuditSink.readBack (d : LogDir) : String :=
  String.join ((List.range (sink.keepFiles + 1)).reverse.filterMap fun i => d (auditFile i))

/-! ### The lines of each file -/

/-- What a file with these lines holds. -/
def logText (lines : List String) : String := String.join (lines.map (· ++ "\n"))

/-- `writeLine`, on the lines of each file. -/
def AuditSink.keepLine (line : String) (chunks : List (List String)) : List (List String) :=
  if sink.rotateSizeBytes < (logText ((Rolling.push line chunks).headD [])).utf8ByteSize then
    Rolling.roll sink.keepFiles (Rolling.push line chunks)
  else Rolling.push line chunks

/-- The lines of each file, the newest first. -/
def AuditSink.chunks (lines : List String) : List (List String) :=
  lines.foldl (fun chunks line => sink.keepLine line chunks) [[]]

/-- The lines kept. -/
def AuditSink.kept (lines : List String) : List String := Rolling.entries (sink.chunks lines)

end

variable {sink : AuditSink} {d : LogDir} {chunks : List (List String)} {line : String}
  {lines : List String}

theorem auditFile_injective : Function.Injective auditFile := by
  have hlog : ∀ i : ℕ, auditLogFilename ≠ auditLogFilename ++ "." ++ i.repr := by
    intro i h
    have hlen := congrArg String.length h
    rw [String.length_append, String.length_append] at hlen
    have hdot : ".".length = 1 := rfl
    omega
  intro i j h
  cases i with
  | zero =>
    cases j with
    | zero => rfl
    | succ j => exact absurd h (hlog _)
  | succ i =>
    cases j with
    | zero => exact absurd h.symm (hlog _)
    | succ j => exact natRepr_injective (String.append_right_inj _ |>.mp h)

theorem logText_snoc (lines : List String) :
    logText (lines ++ [line]) = logText lines ++ (line ++ "\n") := by
  simp [logText, String.join_append]

theorem logText_flatten (chunks : List (List String)) :
    logText chunks.flatten = String.join (chunks.map logText) := by
  induction chunks with
  | nil => rfl
  | cons c cs ih =>
    rw [List.flatten_cons, List.map_cons, String.join_cons, ← ih]
    simp [logText, String.join_append]

/-! ### A line -/

theorem rotate_holds (hk : 1 ≤ sink.keepFiles) (hlen : chunks.length ≤ sink.keepFiles + 1)
    (h : Holds auditFile logText d chunks) :
    Holds auditFile logText (sink.rotate d) (Rolling.roll sink.keepFiles chunks) := by
  have hroll : sink.rotate d = rollFiles auditFile (logText []) sink.keepFiles d := if_pos hk
  rw [hroll]
  exact roll_files auditFile_injective hk hlen h

theorem push_ne_nil : Rolling.push line chunks ≠ [] := by
  cases chunks with
  | nil => exact List.cons_ne_nil _ _
  | cons c cs => exact List.cons_ne_nil _ _

/-- The chunks are there, and there are not too many. -/
structure Fits (sink : AuditSink) (chunks : List (List String)) : Prop where
  ne_nil : chunks ≠ []
  length_le : chunks.length ≤ sink.keepFiles + 1

theorem Fits.keepLine (h : Fits sink chunks) : Fits sink (sink.keepLine line chunks) := by
  unfold AuditSink.keepLine
  split
  · exact ⟨List.cons_ne_nil _ _, Rolling.length_roll_le⟩
  · exact ⟨push_ne_nil, Rolling.length_push_le h.length_le⟩

/-- The files follow the lines. -/
theorem writeLine_holds (hk : 1 ≤ sink.keepFiles) (hfits : Fits sink chunks)
    (h : Holds auditFile logText d chunks) :
    Holds auditFile logText (sink.writeLine line d) (sink.keepLine line chunks) := by
  have hpush := push_files auditFile_injective (f := (· ++ (line ++ "\n"))) logText_snoc hfits.ne_nil h
  have hzero : modify (· ++ (line ++ "\n")) (auditFile 0) d (auditFile 0) =
      some (logText ((Rolling.push line chunks).headD [])) := by
    rw [hpush 0]
    cases hc : Rolling.push line chunks with
    | nil => exact absurd hc push_ne_nil
    | cons c cs => rfl
  have hline : sink.writeLine line d =
      if sink.rotateSizeBytes < (logText ((Rolling.push line chunks).headD [])).utf8ByteSize then
        sink.rotate (modify (· ++ (line ++ "\n")) (auditFile 0) d)
      else modify (· ++ (line ++ "\n")) (auditFile 0) d := by
    unfold AuditSink.writeLine
    simp only [hzero]
  rw [hline]
  unfold AuditSink.keepLine
  split
  · exact rotate_holds hk (Rolling.length_push_le hfits.length_le) hpush
  · exact hpush

/-- A line is added at the end, and with it at most the oldest of `keep_files` rolled files goes. -/
theorem keepLine_entries (hk : 1 ≤ sink.keepFiles) (hfits : Fits sink chunks) (line : String) :
    Rolling.entries (sink.keepLine line chunks) = Rolling.entries chunks ++ [line] ∨
      ∃ oldest, chunks.length = sink.keepFiles + 1 ∧ chunks.getLast? = some oldest ∧
        oldest ++ Rolling.entries (sink.keepLine line chunks) = Rolling.entries chunks ++ [line] := by
  unfold AuditSink.keepLine
  rw [← Rolling.entries_push]
  split
  · have hlen := Rolling.length_push (a := line) hfits.ne_nil
    have hle := hfits.length_le
    by_cases hfull : chunks.length = sink.keepFiles + 1
    · obtain ⟨oldest, hlast, heq⟩ := Rolling.entries_roll_full (hlen.trans hfull)
      rw [Rolling.getLast?_push (by omega)] at hlast
      exact .inr ⟨oldest, hfull, hlast, heq⟩
    · exact .inl (Rolling.entries_roll (by omega))
  · exact .inl rfl

theorem mem_keepLine (hk : 1 ≤ sink.keepFiles) :
    line ∈ Rolling.entries (sink.keepLine line chunks) := by
  unfold AuditSink.keepLine
  split
  · exact Rolling.mem_entries_roll hk
  · rw [Rolling.entries_push]
    simp

/-! ### A sequence of lines -/

theorem chunks_snoc : sink.chunks (lines ++ [line]) = sink.keepLine line (sink.chunks lines) := by
  simp [AuditSink.chunks]

theorem written_snoc : sink.written (lines ++ [line]) = sink.writeLine line (sink.written lines) := by
  simp [AuditSink.written]

/-- A sink that was just opened has written nothing. -/
theorem open_eq (rotateSizeMb keepFiles : ℕ) : AuditSink.open rotateSizeMb keepFiles (fun _ => none) =
    (⟨rotateSizeMb * 1024 * 1024, keepFiles⟩,
      AuditSink.written ⟨rotateSizeMb * 1024 * 1024, keepFiles⟩ []) := rfl

theorem fits_chunks (sink : AuditSink) (lines : List String) : Fits sink (sink.chunks lines) := by
  induction lines using List.reverseRecOn with
  | nil => exact ⟨List.cons_ne_nil _ _, Nat.succ_le_succ (Nat.zero_le _)⟩
  | append_singleton lines line ih =>
    rw [chunks_snoc]
    exact ih.keepLine

theorem written_holds (hk : 1 ≤ sink.keepFiles) (lines : List String) :
    Holds auditFile logText (sink.written lines) (sink.chunks lines) := by
  induction lines using List.reverseRecOn with
  | nil =>
    have hempty : sink.written [] = create "" (auditFile 0) fun _ => none := rfl
    rw [hempty]
    intro i
    cases i with
    | zero => rw [create_self]; rfl
    | succ i => rw [create_of_ne fun h => absurd (auditFile_injective h) (Nat.succ_ne_zero i)]; rfl
  | append_singleton lines line ih =>
    rw [chunks_snoc, written_snoc]
    exact writeLine_holds hk (fits_chunks sink lines) ih

/-- What follows an end of a list is the end of it. -/
theorem suffix_of_append_eq {xs ys zs : List String} (pre : List String) (hsuffix : ys <:+ zs) (hne : xs ≠ [])
    (h : pre ++ xs = ys ++ [line]) : xs <:+ zs ++ [line] ∧ xs.getLast? = some line := by
  obtain ⟨front, rfl⟩ := hsuffix
  refine ⟨⟨front ++ pre, by rw [List.append_assoc, h, List.append_assoc]⟩, ?_⟩
  have hlast := congrArg List.getLast? h
  rwa [List.getLast?_append_of_ne_nil _ hne, List.getLast?_concat] at hlast

/-- What the files hold after a sequence of lines: `kept`, of which the last is the last written, in at
most `keep_files` rolled files without a gap. -/
structure Archived (sink : AuditSink) (lines kept : List String) (d : LogDir) : Prop where
  suffix : kept <:+ lines
  last : kept.getLast? = lines.getLast?
  read : sink.readBack d = logText kept
  atMost : ∀ i, sink.keepFiles < i → d (auditFile i) = none
  noGap : ∀ i, (d (auditFile (i + 1))).isSome → (d (auditFile i)).isSome

theorem kept_suffix (hk : 1 ≤ sink.keepFiles) (lines : List String) :
    sink.kept lines <:+ lines ∧ (sink.kept lines).getLast? = lines.getLast? := by
  induction lines using List.reverseRecOn with
  | nil => exact ⟨List.suffix_refl _, rfl⟩
  | append_singleton lines line ih =>
    unfold AuditSink.kept at ih ⊢
    rw [chunks_snoc, List.getLast?_concat]
    have hne : Rolling.entries (sink.keepLine line (sink.chunks lines)) ≠ [] :=
      List.ne_nil_of_mem (mem_keepLine hk)
    rcases keepLine_entries hk (fits_chunks sink lines) line with heq | ⟨oldest, -, -, heq⟩
    · exact suffix_of_append_eq [] ih.1 hne heq
    · exact suffix_of_append_eq oldest ih.1 hne heq

theorem written_archived (hk : 1 ≤ sink.keepFiles) :
    Archived sink lines (sink.kept lines) (sink.written lines) := by
  have hholds := written_holds hk lines
  have hlen := (fits_chunks sink lines).length_le
  obtain ⟨hsuffix, hlast⟩ := kept_suffix hk lines
  refine ⟨hsuffix, hlast, ?_, ?_, ?_⟩
  · unfold AuditSink.readBack AuditSink.kept Rolling.entries
    rw [hholds.files hlen, logText_flatten]
  · intro i hi
    rw [hholds i, List.getElem?_eq_none (by omega)]
    rfl
  · intro i
    rw [hholds i, hholds (i + 1)]
    simp only [Option.isSome_map, isSome_getElem?]
    intro h
    omega

/-- **The audit log keeps a suffix.**  The files hold an end of the lines, with the last written; and a
line takes away nothing but the oldest file, as a whole, when there are `keep_files` rolled files. -/
theorem audit_keeps_suffix (hk : 1 ≤ sink.keepFiles) (lines : List String) :
    Archived sink lines (sink.kept lines) (sink.written lines) ∧
      ∀ line, sink.kept (lines ++ [line]) = sink.kept lines ++ [line] ∨
        ∃ oldest, (∀ i ≤ sink.keepFiles, (sink.written lines (auditFile i)).isSome) ∧
          sink.written lines (auditFile sink.keepFiles) = some (logText oldest) ∧
          oldest ++ sink.kept (lines ++ [line]) = sink.kept lines ++ [line] := by
  refine ⟨written_archived hk, ?_⟩
  intro line
  have hholds := written_holds hk lines
  unfold AuditSink.kept
  rw [chunks_snoc]
  rcases keepLine_entries hk (fits_chunks sink lines) line with heq | ⟨oldest, hfull, hlast, heq⟩
  · exact .inl heq
  · refine .inr ⟨oldest, ?_, ?_, heq⟩
    · intro i hi
      rw [hholds i]
      simp only [Option.isSome_map, isSome_getElem?]
      omega
    · rw [List.getLast?_eq_getElem?, hfull] at hlast
      rw [hholds, show sink.keepFiles = sink.keepFiles + 1 - 1 by omega, hlast]
      rfl

/-- Each line fills a file, and two are kept. -/
theorem audit_keeps_two :
    Archived ⟨1, 2⟩ ["a", "b", "c", "d"] (AuditSink.kept ⟨1, 2⟩ ["a", "b", "c", "d"])
        (AuditSink.written ⟨1, 2⟩ ["a", "b", "c", "d"]) ∧
      AuditSink.kept ⟨1, 2⟩ ["a", "b", "c", "d"] = ["c", "d"] :=
  ⟨(audit_keeps_suffix (by decide) ["a", "b", "c", "d"]).1, by decide⟩

end RobotMoney.Client
