/-
Module: Terragraph.Stats.TailAgent
Purpose: `TailAgent`, which tails a log file and remembers its position in a marker file.
Trusted boundary: human-reviewed embedding of `TailAgent.cpp`; files can be read and written, and
  only the agent writes its marker file
Main exports: fetchLogLines, log_tailing_exact
-/
import Terragraph.Lib.Transition

namespace Terragraph

open List Option

/-! ### The agent -/

abbrev LogBytes := List UInt8

def newline : UInt8 := 10

structure Marker where
  inode : UInt64
  position : Int

structure TailAgent where
  /-- The position of the stream, unless it is closed or has failed. -/
  fileIfs : Option Nat := none
  staleCount : Int := 0
  markerPosition : Int := 0
  markerInode : UInt64 := 0

/-- A number as it is stored in an `int32_t`. -/
def toInt32 (n : Int) : Int := n.bmod (2 ^ 32)

/-- `istream::seekg`, which fails at a negative position. -/
def seekg (position : Int) : Option Nat :=
  if 0 ≤ position then some position.toNat else none

/-- `istream::tellg`. -/
def tellg (fileIfs : Option Nat) : Int :=
  match fileIfs with
  | some position => position
  | none => -1

/-- `TailAgent::getNextLine`: the end of the file ends a line, too. -/
def getNextLine (file : LogBytes) : Option Nat → LogBytes × Option Nat
  | none => ([], none)
  | some position =>
    let line := (file.drop position).takeWhile (· != newline)
    (line, some (if position + line.length < file.length then position + line.length + 1
      else max position file.length))

section Fetch

variable (rotationCheckCount : Nat)

/-- The first part of `fetchLogLines`: the file is opened again after a while. -/
def openFile (inode : UInt64) (markerFile : Option Marker) (agent : TailAgent) : TailAgent :=
  if agent.staleCount ≤ 0 then
    let staleCount := toInt32 rotationCheckCount
    match markerFile.filter (·.inode = inode) with
    | some marker => ⟨seekg marker.position, staleCount, marker.position, marker.inode⟩
    | none => ⟨some 0, staleCount, 0, inode⟩
  else agent

/-- The loop of `fetchLogLines`, with the number of lines that still fit into the buffer. -/
def fetchLines (file : LogBytes) : Nat → TailAgent → TailAgent × List LogBytes
  | 0, agent => (agent, [])
  | room + 1, agent =>
    let (line, fileIfs) := getNextLine file agent.fileIfs
    if line ≠ [] then
      let (agent, lines) := fetchLines file room { agent with
        fileIfs := fileIfs
        markerPosition := toInt32 (tellg fileIfs)
        staleCount := toInt32 rotationCheckCount }
      (agent, line :: lines)
    else ({ agent with fileIfs := fileIfs, staleCount := agent.staleCount - 1 }, [])

/-- A log file with its agent, and the lines that have been fetched. -/
structure TailedLog where
  inode : UInt64
  file : LogBytes
  markerFile : Option Marker := none
  agent : TailAgent := {}
  fetched : List LogBytes := []

/-- `TailAgent::fetchLogLines` into an empty buffer. -/
def fetchLogLines (logCount : Nat) (log : TailedLog) : TailedLog :=
  let opened := openFile rotationCheckCount log.inode log.markerFile log.agent
  let (agent, lines) := fetchLines rotationCheckCount log.file logCount opened
  { log with
    markerFile := some ⟨agent.markerInode, agent.markerPosition⟩
    agent := agent
    fetched := log.fetched ++ lines }

inductive TailOp where
  | append (chunk : LogBytes)
  | fetch (logCount : Nat)
  | restart

def TailedLog.step (log : TailedLog) : TailOp → TailedLog
  | .append chunk => { log with file := log.file ++ chunk }
  | .fetch logCount => fetchLogLines rotationCheckCount logCount log
  | .restart => { log with agent := {} }

end Fetch

/-! ### Lines -/

/-- The non-empty lines that end with a newline. -/
def loggedLines (file : LogBytes) : List LogBytes :=
  (file.splitOnP (· == newline)).dropLast.filter (· ≠ [])

/-- There is no line without its end. -/
def Terminated (file : LogBytes) : Prop := file = [] ∨ ∃ before, file = before ++ [newline]

theorem loggedLines_append {before : LogBytes} (terminated : Terminated before) (after : LogBytes) :
    loggedLines (before ++ after) = loggedLines before ++ loggedLines after := by
  rcases terminated with rfl | ⟨before, rfl⟩
  · rfl
  · have split : ∀ rest, loggedLines (before ++ newline :: rest) =
        (splitOnP (· == newline) before).filter (· ≠ []) ++ loggedLines rest := by
      intro rest
      rw [loggedLines, splitOnP_append_cons _ _ (by rfl),
        dropLast_append_of_ne_nil (splitOnP_ne_nil _ _), filter_append, loggedLines]
    rw [append_assoc, singleton_append, split, split]
    simp [loggedLines]

/-- The file up to a position consists of these lines. -/
structure AtLine (file : LogBytes) (lines : List LogBytes) (position : Nat) : Prop where
  inside : position ≤ file.length
  terminated : Terminated (file.take position)
  logged : loggedLines (file.take position) = lines

section Lines

variable {file : LogBytes} {lines : List LogBytes} {position : Nat}

theorem AtLine.isPrefix (here : AtLine file lines position) : lines <+: loggedLines file := by
  have whole := loggedLines_append here.terminated (file.drop position)
  rw [take_append_drop, here.logged] at whole
  exact ⟨_, whole.symm⟩

theorem AtLine.append (here : AtLine file lines position) (chunk : LogBytes) :
    AtLine (file ++ chunk) lines position := by
  obtain ⟨inside, terminated, logged⟩ := here
  rw [← take_append_of_le_length inside] at terminated logged
  exact ⟨Nat.le_trans inside (by simp), terminated, logged⟩

/-- In a file that ends with a newline a line is read to its end. -/
theorem getNextLine_spec (terminated : Terminated file) (here : AtLine file lines position) :
    ∃ line next, getNextLine file (some position) = (line, some next) ∧
      AtLine file (lines ++ [line].filter (· ≠ [])) next := by
  rcases Nat.eq_or_lt_of_le here.inside with atEnd | before
  · refine ⟨[], position, by simp [getNextLine, atEnd], ?_⟩
    simpa using here
  · have ends : newline ∈ file.drop position := by
      rcases terminated with rfl | ⟨_, rfl⟩
      · cases before
      · rw [length_append] at before
        rw [drop_append_of_le_length (Nat.le_of_lt_succ before)]
        simp
    obtain ⟨line, after, rest, apart⟩ := eq_append_cons_of_mem ends
    have other : ∀ byte ∈ line, byte ≠ newline := fun _ member same => apart (same ▸ member)
    have isLine : (file.drop position).takeWhile (· != newline) = line := by
      rw [rest, takeWhile_append_of_pos (by simpa using other)]
      simp
    have length : file.length = position + line.length + 1 + after.length := by
      have sizes := congrArg List.length rest
      simp only [length_drop, length_append, length_cons] at sizes
      omega
    have taken : file.take (position + line.length + 1) =
        file.take position ++ (line ++ [newline]) := by
      rw [Nat.add_assoc, take_add, rest, take_length_add_append]
      rfl
    refine ⟨line, position + line.length + 1, ?_, by omega, ?_, ?_⟩
    · simp only [getNextLine, isLine]
      rw [if_pos (by omega)]
    · rw [taken, ← append_assoc]
      exact .inr ⟨_, rfl⟩
    · have single : splitOnP (· == newline) line = [line] :=
        splitOnP_eq_singleton (by simpa using other)
      rw [taken, loggedLines_append here.terminated, here.logged, loggedLines,
        splitOnP_append_cons _ _ (by rfl), single]
      rfl

end Lines

theorem toInt32_inj {position other : Nat} (small : position < 2 ^ 32)
    (same : toInt32 position = other) : other = position := by
  rw [toInt32, Int.bmod_def] at same
  omega

/-! ### The invariant -/

/-- Wherever the agent goes on, the lines before are these. -/
structure Tracks (file : LogBytes) (lines : List LogBytes) (agent : TailAgent) : Prop where
  reached : ∃ position, AtLine file lines position
  stream : ∀ position ∈ agent.fileIfs, AtLine file lines position
  marker : ∀ position : Nat, agent.markerPosition = position → AtLine file lines position

structure Tailing (log : TailedLog) : Prop where
  reached : ∃ position, AtLine log.file log.fetched position
  agent : 0 < log.agent.staleCount →
    Tracks log.file log.fetched log.agent ∧ log.agent.markerInode = log.inode
  markerFile : ∀ position : Nat,
    (log.markerFile.filter (·.inode = log.inode)).elim 0 Marker.position = position →
    AtLine log.file log.fetched position

/-- A log whose agent has never run. -/
def TailedLog.Fresh (log : TailedLog) : Prop :=
  log.agent = {} ∧ log.fetched = [] ∧ ∀ marker ∈ log.markerFile, marker.inode ≠ log.inode

/-- Lines are fetched while the file ends with a newline and its size fits into 32 bits. -/
def TailedLog.Ready (log : TailedLog) : TailOp → Prop
  | .fetch _ => Terminated log.file ∧ log.file.length < 2 ^ 32
  | _ => True

/-- The states that appends, fetches and restarts lead to. -/
abbrev TailsTo (rotationCheckCount : Nat) (allowed : TailedLog → TailOp → Prop) :
    TailedLog → Prop :=
  Transition.Reaches TailedLog.Fresh (fun log op log' => log' = log.step rotationCheckCount op)
    allowed

section Run

variable {rotationCheckCount : Nat} {log : TailedLog}

theorem TailsTo.perform {allowed : TailedLog → TailOp → Prop}
    (reached : TailsTo rotationCheckCount allowed log) (op : TailOp) (permitted : allowed log op) :
    TailsTo rotationCheckCount allowed (log.step rotationCheckCount op) :=
  reached.step permitted rfl

variable (rotationCheckCount)

theorem fetchLines_tracks {file : LogBytes} (terminated : Terminated file)
    (small : file.length < 2 ^ 32) {lines : List LogBytes} {agent : TailAgent}
    (tracks : Tracks file lines agent) (room : Nat) :
    Tracks file (lines ++ (fetchLines rotationCheckCount file room agent).2)
        (fetchLines rotationCheckCount file room agent).1 ∧
      (fetchLines rotationCheckCount file room agent).1.markerInode = agent.markerInode := by
  induction room generalizing lines agent with
  | zero => simpa [fetchLines] using tracks
  | succ _ ih =>
    cases stream : agent.fileIfs with
    | none =>
      simpa [fetchLines, getNextLine, stream] using ⟨tracks.reached, by simp, tracks.marker⟩
    | some position =>
      obtain ⟨line, next, read, there⟩ :=
        getNextLine_spec terminated (tracks.stream position stream)
      rw [fetchLines, stream, read]
      by_cases nonempty : line ≠ []
      · rw [filter_cons_of_pos (by simpa using nonempty)] at there
        have tracked : Tracks file (lines ++ [line]) { agent with
            fileIfs := some next
            markerPosition := toInt32 next
            staleCount := toInt32 rotationCheckCount } := by
          refine ⟨⟨next, there⟩, by simpa using there, ?_⟩
          intro _ same
          simp only at same
          rwa [toInt32_inj (Nat.lt_of_le_of_lt there.inside small) same]
        have later := ih tracked
        rw [append_assoc, singleton_append] at later
        simpa only [if_pos nonempty, tellg] using later
      · rw [Decidable.not_not] at nonempty
        subst nonempty
        simpa using ⟨tracks.reached, by simpa using there, tracks.marker⟩

theorem Tailing.opened (tailing : Tailing log) : Tracks log.file log.fetched
        (openFile rotationCheckCount log.inode log.markerFile log.agent) ∧
      (openFile rotationCheckCount log.inode log.markerFile log.agent).markerInode =
        log.inode := by
  rw [openFile]
  split
  · cases found : log.markerFile.filter (·.inode = log.inode) with
    | none =>
      have resumes := tailing.markerFile
      rw [found] at resumes
      exact ⟨⟨tailing.reached, fun _ same => some.inj same ▸ resumes 0 rfl, resumes⟩, rfl⟩
    | some marker =>
      have resumes := tailing.markerFile
      rw [found] at resumes
      refine ⟨⟨tailing.reached, ?_, resumes⟩, ?_⟩
      · intro position seeked
        change seekg marker.position = some position at seeked
        unfold seekg at seeked
        split at seeked
        · next nonneg =>
          cases seeked
          exact resumes _ (Int.toNat_of_nonneg nonneg).symm
        · cases seeked
      · exact of_decide_eq_true (filter_eq_some_iff.mp found).2
  · next fresh => exact tailing.agent (Int.not_le.mp fresh)

variable {rotationCheckCount}

theorem Tailing.step (tailing : Tailing log) {op : TailOp} (ready : log.Ready op) :
    Tailing (log.step rotationCheckCount op) := by
  cases op with
  | append chunk =>
    obtain ⟨position, here⟩ := tailing.reached
    refine ⟨⟨position, here.append chunk⟩, fun isOpen => ?_, fun next resumes =>
      (tailing.markerFile next resumes).append chunk⟩
    obtain ⟨tracks, sameInode⟩ := tailing.agent isOpen
    exact ⟨⟨⟨position, here.append chunk⟩,
      fun next reads => (tracks.stream next reads).append chunk,
      fun next marks => (tracks.marker next marks).append chunk⟩, sameInode⟩
  | fetch logCount =>
    obtain ⟨opened, sameInode⟩ := tailing.opened rotationCheckCount
    obtain ⟨tracks, kept⟩ :=
      fetchLines_tracks rotationCheckCount ready.1 ready.2 opened logCount
    refine ⟨tracks.reached, fun _ => ⟨tracks, kept.trans sameInode⟩, ?_⟩
    intro _ resumes
    apply tracks.marker
    simpa [TailedLog.step, fetchLogLines, kept.trans sameInode, filter_some] using resumes
  | restart => exact ⟨tailing.reached, (absurd · (Int.lt_irrefl 0)), tailing.markerFile⟩

/-- In every run that fetches lines only while the log ends with a newline and is smaller than four
gigabytes, what has been fetched are the first lines of the log. -/
theorem log_tailing_exact (reached : TailsTo rotationCheckCount TailedLog.Ready log) :
    log.fetched <+: loggedLines log.file := by
  have tailing : Tailing log := by
    refine reached.invariant Tailing ?_ ?_
    · rintro log ⟨isNew, nothing, other⟩
      have here : AtLine log.file log.fetched 0 :=
        ⟨Nat.zero_le _, by simp [Terminated], by simp [nothing, loggedLines]⟩
      have noMarker : log.markerFile.filter (·.inode = log.inode) = none :=
        filter_eq_none_iff.mpr (by simpa using other)
      refine ⟨⟨0, here⟩, ?_, ?_⟩
      · rw [isNew]
        exact (absurd · (Int.lt_irrefl 0))
      · intro _ resumes
        rw [noMarker] at resumes
        cases Int.ofNat.inj resumes
        exact here
    · rintro _ _ _ tailing ready rfl
      exact tailing.step ready
  obtain ⟨_, here⟩ := tailing.reached
  exact here.isPrefix

end Run

/-- The lines `a`, `b` and `c` are fetched once each, across an empty line and a restart. -/
theorem log_tailing_exact_after_restart :
    ∃ log, TailsTo 10 TailedLog.Ready log ∧ log.fetched = [[97], [98], [99]] ∧
      log.fetched <+: loggedLines log.file := by
  have start : TailsTo 10 TailedLog.Ready { inode := 1, file := [97, 10, 10, 98, 10] } :=
    .start ⟨rfl, rfl, nofun⟩
  have complete : Terminated [97, 10, 10, 98, 10, 99, 10] := .inr ⟨[97, 10, 10, 98, 10, 99], rfl⟩
  have third := ((((start.perform (.fetch 5) ⟨.inr ⟨[97, 10, 10, 98], rfl⟩, by decide⟩).perform
    .restart trivial).perform (.append [99, 10]) trivial).perform (.fetch 5)
    ⟨complete, by decide⟩).perform (.fetch 5) ⟨complete, by decide⟩
  exact ⟨_, third, by decide, log_tailing_exact third⟩

/-- A line that is written in two parts is fetched in two parts. -/
theorem log_tailing_exact_fails :
    ∃ log, TailsTo 10 (fun _ _ => True) log ∧ log.fetched = [[97], [98]] ∧
      loggedLines log.file = [[97, 98]] ∧ ¬ log.fetched <+: loggedLines log.file := by
  have start : TailsTo 10 (fun _ _ => True) { inode := 1, file := [97] } :=
    .start ⟨rfl, rfl, nofun⟩
  have second := ((start.perform (.fetch 5) trivial).perform (.append [98, 10]) trivial).perform
    (.fetch 5) trivial
  exact ⟨_, second, by decide, by decide, by decide⟩

end Terragraph
