import DataEngine.Lib.Text
import DataEngine.Log.Contents

/-!
What is written to a log, and how it is read.

`printBuf` makes two lines of a frame: who has sent or received it and when, and its octets. Who
knows that can read a log back: as long as no name or sign ends a line or a field, the text of any
frames one after another says what they were.
-/

namespace DataEngine.Log

open Lib.Text
open TransIEC104 (SysTime)

inductive PrintType where
  | source | frame
  deriving DecidableEq

inductive BufDirection where
  | send | recv
  deriving DecidableEq

/-- What `printBuf` is called with -/
structure Entry where
  name : String
  type : PrintType
  strSign : String
  direction : BufDirection
  frameBuf : List UInt8
  deriving DecidableEq

def PrintType.strType : PrintType → String
  | .source => "源码"
  | .frame => "报文"

def BufDirection.strDir : BufDirection → String
  | .send => "发送"
  | .recv => "接收"

/-- What the first line says after the three fields of the entry. -/
def restOfHead (timeNow : SysTime) (size : ℕ) : String :=
  "[" ++ toString timeNow.year ++ "-" ++ setw2 timeNow.mon ++ "-" ++ setw2 timeNow.day ++ " " ++
    setw2 timeNow.hour ++ ":" ++ setw2 timeNow.min ++ ":" ++ setw2 timeNow.sec ++ "." ++
    toString timeNow.milliSec ++ "][长度:" ++ toString size ++ "]"

/-- The text that `printBuf` hands to the log -/
def rawBuffer (e : Entry) (timeNow : SysTime) : String :=
  e.type.strType ++ ":[" ++ e.name ++ "][" ++ e.direction.strDir ++ "][" ++ e.strSign ++ "]" ++
    restOfHead timeNow e.frameBuf.length ++ "\n" ++
    String.ofList (e.frameBuf.flatMap hexOctet) ++ "\n"

/-! ### Reading -/

def readEntry (head octets : List Char) : Entry :=
  let fields := head.splitOn ']'
  { name := String.ofList ((fields.getD 0 []).drop 4)
    type := if (fields.getD 0 []).take 2 = PrintType.source.strType.toList then .source else .frame
    strSign := String.ofList ((fields.getD 2 []).drop 1)
    direction := if (fields.getD 1 []).drop 1 = BufDirection.send.strDir.toList then .send
      else .recv
    frameBuf := readOctets octets }

def readLines : List (List Char) → List Entry
  | head :: octets :: lines => readEntry head octets :: readLines lines
  | _ => []

def readText (text : String) : List Entry := readLines (text.toList.splitOn '\n')

/-- The entries in a file with these octets, none if they are not a text. -/
def readLog (octets : List UInt8) : List Entry := ((readBytes octets).map readText).getD []

/-! ### What has been written is read -/

/-- Neither the name nor the sign ends a line or a field. -/
def Entry.Plain (e : Entry) : Prop :=
  ∀ c ∈ ['\n', ']'], c ∉ e.name.toList ∧ c ∉ e.strSign.toList

lemma not_mem_toDigits {c : Char} (hc : c.isDigit = false) (n : ℕ) : c ∉ Nat.toDigits 10 n := by
  intro hmem
  have hdigit := Nat.isDigit_of_mem_toDigits (b := 10) (by decide) (by decide) hmem
  rw [hc] at hdigit
  cases hdigit

lemma not_mem_setw2 {c : Char} (hc : c.isDigit = false) (n : ℕ) : c ∉ (setw2 n).toList := by
  have hnum := not_mem_toDigits hc n
  unfold setw2
  split_ifs
  · have hzero : c ≠ '0' := by
      rintro rfl
      cases hc
    simp [hnum, hzero]
  · simpa using hnum

lemma newline_not_mem_rest (timeNow : SysTime) (size : ℕ) :
    '\n' ∉ (restOfHead timeNow size).toList := by
  have hnum := not_mem_toDigits (c := '\n') rfl
  have htwo := not_mem_setw2 (c := '\n') rfl
  unfold restOfHead
  simp [hnum, htwo]

section Entry

variable {e : Entry}

/-- The first line, field by field -/
def headLine (e : Entry) (timeNow : SysTime) : List Char :=
  (e.type.strType.toList ++ ":[".toList ++ e.name.toList) ++ ']' ::
    (('[' :: e.direction.strDir.toList) ++ ']' :: (('[' :: e.strSign.toList) ++ ']' ::
      (restOfHead timeNow e.frameBuf.length).toList))

lemma rawBuffer_eq (e : Entry) (timeNow : SysTime) : (rawBuffer e timeNow).toList =
    headLine e timeNow ++ '\n' :: (e.frameBuf.flatMap hexOctet ++ ['\n']) := by
  unfold rawBuffer
  simp [headLine]

lemma newline_not_mem_headLine (h : e.Plain) (timeNow : SysTime) :
    '\n' ∉ headLine e timeNow := by
  obtain ⟨hname, hsign⟩ := h '\n' (by simp)
  have hrest := newline_not_mem_rest timeNow e.frameBuf.length
  have htype : '\n' ∉ e.type.strType.toList := by cases e.type <;> decide
  have hdir : '\n' ∉ e.direction.strDir.toList := by cases e.direction <;> decide
  simp [headLine, hname, hsign, hrest, htype, hdir]

/-- The fields of the first line -/
lemma splitOn_headLine (h : e.Plain) (timeNow : SysTime) :
    ∃ fields, (headLine e timeNow).splitOn ']' =
      (e.type.strType.toList ++ ":[".toList ++ e.name.toList) ::
        ('[' :: e.direction.strDir.toList) :: ('[' :: e.strSign.toList) :: fields := by
  obtain ⟨hname, hsign⟩ := h ']' (by simp)
  have htype : ']' ∉ e.type.strType.toList := by cases e.type <;> decide
  have hdir : ']' ∉ e.direction.strDir.toList := by cases e.direction <;> decide
  refine ⟨(restOfHead timeNow e.frameBuf.length).toList.splitOn ']', ?_⟩
  rw [headLine, List.splitOn_append_cons_self_of_not_mem (by simp [hname, htype]),
    List.splitOn_append_cons_self_of_not_mem (by simp [hdir]),
    List.splitOn_append_cons_self_of_not_mem (by simp [hsign])]

lemma readEntry_headLine (h : e.Plain) (timeNow : SysTime) :
    readEntry (headLine e timeNow) (e.frameBuf.flatMap hexOctet) = e := by
  obtain ⟨fields, hfields⟩ := splitOn_headLine h timeNow
  have hwho (rest : List Char) : (e.type.strType.toList ++ ":[".toList ++ rest).drop 4 = rest ∧
      ((e.type.strType.toList ++ ":[".toList ++ rest).take 2 = PrintType.source.strType.toList ↔
        e.type = .source) := by
    cases e.type
    · exact ⟨rfl, by simp [PrintType.strType]⟩
    · exact ⟨rfl, by simp [PrintType.strType]⟩
  have hdir : e.direction.strDir.toList = BufDirection.send.strDir.toList ↔
      e.direction = .send := by
    cases e.direction <;> simp [BufDirection.strDir]
  obtain ⟨hname, htype⟩ := hwho e.name.toList
  unfold readEntry
  simp only [hfields, readOctets_flatMap, List.getD_cons_zero, List.getD_cons_succ, hname, htype,
    hdir, List.drop_succ_cons, List.drop_zero, String.ofList_toList]
  rcases e with ⟨name, _ | _, strSign, _ | _, frameBuf⟩ <;> rfl

/-- What is written for an entry is read as the entry. -/
lemma readText_append (h : e.Plain) (timeNow : SysTime) (text : String) :
    readText (rawBuffer e timeNow ++ text) = e :: readText text := by
  have hhead := newline_not_mem_headLine h timeNow
  have hoctets : '\n' ∉ e.frameBuf.flatMap hexOctet :=
    not_mem_hexOctets (by decide) (by decide) _
  rw [readText, String.toList_append, rawBuffer_eq, List.append_assoc, List.cons_append,
    List.splitOn_append_cons_self_of_not_mem hhead, List.append_assoc, List.singleton_append,
    List.splitOn_append_cons_self_of_not_mem hoctets, readLines, readEntry_headLine h]
  rfl

/-- The octets that are written for an entry -/
def record (p : Entry × SysTime) : List UInt8 := bytes (rawBuffer p.1 p.2)

lemma readText_join {printed : List (Entry × SysTime)} (h : ∀ p ∈ printed, p.1.Plain) :
    readText (String.join (printed.map fun p => rawBuffer p.1 p.2)) = printed.map Prod.fst := by
  induction printed with
  | nil => rfl
  | cons p printed ih =>
    rw [List.map_cons, String.join_cons, readText_append (h p List.mem_cons_self),
      ih fun q hq => h q (List.mem_cons_of_mem p hq), List.map_cons]

/-- The entries are read from the octets. -/
lemma readLog_records {printed : List (Entry × SysTime)} (h : ∀ p ∈ printed, p.1.Plain) :
    readLog (printed.map record).flatten = printed.map Prod.fst := by
  have hbytes : (printed.map record).flatten =
      bytes (String.join (printed.map fun p => rawBuffer p.1 p.2)) := by
    rw [bytes_join, List.flatMap_map, ← List.flatMap_def]
    rfl
  rw [hbytes, readLog, readBytes_bytes, Option.map_some, Option.getD_some, readText_join h]

end Entry

/-! ### The kept files -/

/-- Reading the files that are kept, in the order of their names -/
def readFolder (s : Folder) : List Entry := readLog ((inOrder s.log.minFName).flatMap s.contents)

section Journal

variable {n : ℕ} {s : Folder} {gone files : List Kept} {records : List (List UInt8)}

/-- The files that are kept say what has been printed last. -/
lemma Journal.readFolder {printed : List (Entry × SysTime)}
    (h : Journal n s gone files (printed.map record)) (hplain : ∀ p ∈ printed, p.1.Plain) :
    ∃ k, readFolder s = (printed.map Prod.fst).drop k ∧ (k = 0 ∨ n ≤ s.log.minFName.card) := by
  refine ⟨(gone.flatMap Prod.snd).length, ?_, ?_⟩
  · have hkept : files.flatMap Prod.snd =
        (printed.drop (gone.flatMap Prod.snd).length).map record := by
      have hrecords := h.records
      rw [List.flatMap_append] at hrecords
      rw [List.map_drop, ← hrecords, List.drop_left]
    have hcontents : (files.map Prod.fst).flatMap s.contents =
        (files.flatMap Prod.snd).flatten := by
      calc (files.map Prod.fst).flatMap s.contents
          = (files.map fun f => s.contents f.1).flatten := by
            rw [List.flatMap_map, List.flatMap_def]
        _ = (files.map fun f => f.2.flatten).flatten := by rw [List.map_congr_left h.holds]
        _ = (files.flatMap Prod.snd).flatten := by
            rw [List.flatMap_def, List.flatten_flatten, List.map_map]
            rfl
    rw [Log.readFolder, inOrder_eq h.sorted h.names, hcontents, hkept,
      readLog_records fun p hp => hplain p (List.mem_of_mem_drop hp), List.map_drop]
  · rw [h.card]
    exact h.least.imp_left fun hnil => by rw [hnil]; rfl

end Journal

end DataEngine.Log
