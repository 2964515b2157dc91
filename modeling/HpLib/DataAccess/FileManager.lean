import HpLib.Common.CircularBuffer
import HpLib.Lib.Table

/-!
# FileManager

The two functions of `dataaccess/src/file_manager.cc` on a file system that
maps addresses to bytes. Opening a file to write it truncates it and always
succeeds; a file that was never written cannot be opened to be read.
-/

namespace HpLib

open Lib

/-- A file address, the bytes of a `std::string`. -/
abbrev FileAddress : Type := Bytes

abbrev Files : Type := Table FileAddress Bytes

def newline : UInt8 := 10

/-- The bytes up to the first newline and those after it; all of them and
none where there is no newline. -/
def splitLine : Bytes → Bytes × Bytes
  | [] => ([], [])
  | b :: bs =>
      if b = newline then ([], bs) else (b :: (splitLine bs).1, (splitLine bs).2)

/-- `std::getline`, with what is left to read; it fails where nothing is. -/
def getline : Bytes → Option (Bytes × Bytes)
  | [] => none
  | b :: bs => some (splitLine (b :: bs))

theorem splitLine_cases (bytes : Bytes) :
    bytes = (splitLine bytes).1 ++ newline :: (splitLine bytes).2 ∨
      (newline ∉ bytes ∧ splitLine bytes = (bytes, [])) := by
  induction bytes with
  | nil => exact .inr ⟨List.not_mem_nil, rfl⟩
  | cons b bs ih =>
      by_cases hb : b = newline
      · left
        simp [splitLine, hb]
      · rcases ih with hline | ⟨hnot, hsplit⟩
        · left
          simp only [splitLine, if_neg hb, List.cons_append]
          rw [← hline]
        · right
          constructor
          · simp [hnot, Ne.symm hb]
          · simp only [splitLine, if_neg hb, hsplit]

theorem getline_length {rest line rest' : Bytes} (h : getline rest = some (line, rest')) :
    rest'.length < rest.length := by
  cases rest with
  | nil => cases h
  | cons b bs =>
      have hsplit : splitLine (b :: bs) = (line, rest') := Option.some.inj h
      rcases splitLine_cases (b :: bs) with hline | ⟨-, hall⟩
      · rw [hsplit] at hline
        rw [hline, List.length_append, List.length_cons]
        show rest'.length < line.length + (rest'.length + 1)
        omega
      · rw [hall] at hsplit
        cases hsplit
        exact Nat.succ_pos _

namespace FileManager

/-- `open` truncates, `<<` appends what it is given. -/
def write (files : Files) (fileAddress : FileAddress) (content : Bytes) : Files :=
  let opened := files.assign fileAddress []
  opened.assign fileAddress ((opened.find fileAddress).getD [] ++ content)

/-- `while (getline (myfile, line)) content += line + "\n"`, with `rest`
still to be read. -/
def readLoop (content rest : Bytes) : Bytes :=
  match h : getline rest with
  | none => content
  | some (line, rest') =>
      have : rest'.length < rest.length := getline_length h
      readLoop (content ++ (line ++ [newline])) rest'
termination_by rest.length

def read (files : Files) (fileAddress : FileAddress) : Bytes :=
  match files.find fileAddress with
  | none => []
  | some bytes => readLoop [] bytes

/-! ## What is read back -/

/-- Nothing, or bytes of which the last is a newline. -/
def EndsLine (bytes : Bytes) : Prop :=
  bytes = [] ∨ bytes.getLast? = some newline

instance : DecidablePred EndsLine := fun _ => inferInstanceAs (Decidable (_ ∨ _))

/-- The newline that the loop adds to a last line without one. -/
def ending (bytes : Bytes) : Bytes :=
  if EndsLine bytes then [] else [newline]

theorem ending_eq_nil_iff {bytes : Bytes} : ending bytes = [] ↔ EndsLine bytes := by
  by_cases h : EndsLine bytes <;> simp [ending, h]

theorem endsLine_append (line rest : Bytes) :
    EndsLine (line ++ newline :: rest) ↔ EndsLine rest := by
  cases rest with
  | nil => simp [EndsLine]
  | cons b bs => simp [EndsLine, List.getLast?_append, List.getLast?_cons_cons]

theorem not_endsLine {bytes : Bytes} (hne : bytes ≠ []) (hnot : newline ∉ bytes) :
    ¬ EndsLine bytes := by
  rintro (hnil | hlast)
  · exact hne hnil
  · exact hnot (List.mem_of_getLast? hlast)

/-- The loop gives back what is in the file, with its last line ended. -/
theorem readLoop_eq (content rest : Bytes) :
    readLoop content rest = content ++ (rest ++ ending rest) := by
  induction hn : rest.length using Nat.strong_induction_on generalizing content rest with
  | _ n ih =>
      subst hn
      rw [readLoop]
      cases rest with
      | nil => simp [getline, ending, EndsLine]
      | cons b bs =>
          have hline : getline (b :: bs) = some (splitLine (b :: bs)) := rfl
          have hlt : (splitLine (b :: bs)).2.length < (b :: bs).length := getline_length hline
          show readLoop (content ++ ((splitLine (b :: bs)).1 ++ [newline])) (splitLine (b :: bs)).2
            = _
          rw [ih _ hlt _ _ rfl]
          rcases splitLine_cases (b :: bs) with hline | ⟨hnot, hall⟩
          · have hending : ending (b :: bs) = ending (splitLine (b :: bs)).2 := by
              rw [ending, ending, hline]
              simp only [endsLine_append]
              rw [← hline]
            calc content ++ ((splitLine (b :: bs)).1 ++ [newline])
                  ++ ((splitLine (b :: bs)).2 ++ ending (splitLine (b :: bs)).2)
                = content ++ (((splitLine (b :: bs)).1 ++ newline :: (splitLine (b :: bs)).2)
                  ++ ending (splitLine (b :: bs)).2) := by simp
              _ = content ++ (b :: bs ++ ending (b :: bs)) := by rw [← hline, hending]
          · have hending : ending (b :: bs) = [newline] :=
              if_neg (not_endsLine (List.cons_ne_nil b bs) hnot)
            rw [hall, hending]
            simp [ending, EndsLine]

theorem read_of_find {files : Files} {a : FileAddress} {bytes : Bytes}
    (h : files.find a = some bytes) : read files a = bytes ++ ending bytes := by
  simp only [read, h, readLoop_eq, List.nil_append]

/-- What a file holds is read back exactly when it ends its last line. -/
theorem read_eq_iff {files : Files} {a : FileAddress} {bytes : Bytes}
    (h : files.find a = some bytes) : read files a = bytes ↔ EndsLine bytes := by
  rw [read_of_find h, List.append_right_eq_self, ending_eq_nil_iff]

@[simp] theorem find_write_self (files : Files) (a : FileAddress) (content : Bytes) :
    (write files a content).find a = some content := by
  simp [write]

theorem find_write_of_ne (files : Files) {a b : FileAddress} (content : Bytes) (h : b ≠ a) :
    (write files a content).find b = files.find b := by
  simp only [write, Table.find_assign_of_ne _ _ h]

/-- A write is not seen under any other address. -/
theorem read_write_of_ne (files : Files) {a b : FileAddress} (content : Bytes) (h : b ≠ a) :
    read (write files a content) b = read files b := by
  simp only [read, find_write_of_ne files content h]

end FileManager

end HpLib
