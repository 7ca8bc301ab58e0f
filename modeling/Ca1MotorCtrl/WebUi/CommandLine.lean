import Ca1MotorCtrl.Lexical
import Ca1MotorCtrl.Loop.ManualAccess

/-! The command line of the page for accesses to the dictionary: how `odExec` reads
a line, what `/api/od` makes of it, and what the log shows of it. Finite numbers are
exact; from 2^53 on the page rounds them, which is far outside every accepted access. -/
namespace Ca1MotorCtrl

open Lexical

/-- What `parseInt` returns. -/
inductive PageNumber where
  | nan
  | infinity (negative : Bool)
  | int (n : ℤ)
  deriving DecidableEq, Repr

/-- What `odExec` sends. JSON has `null` for a number that is not finite. -/
structure OdBody where
  op : String
  index : PageNumber
  subindex : PageNumber
  value : PageNumber
  deriving DecidableEq, Repr

/-- What becomes of a command: the handler raises an exception, it answers that it does
not know the operation, or it calls the manual service of the controller node. -/
inductive OdOutcome where
  | raised
  | unknownOp (op : String)
  | called (req : OdRequest)
  deriving DecidableEq, Repr

structure OdResult where
  success : Bool
  value : OdValue := 0
  message : String := ""
  deriving DecidableEq, Repr

section Page

/-- The white space of the page's scripts. -/
def whiteSpace : List Char :=
  [9, 10, 11, 12, 13, 32, 0xA0, 0x1680, 0x2000, 0x2001, 0x2002, 0x2003, 0x2004, 0x2005, 0x2006,
    0x2007, 0x2008, 0x2009, 0x200A, 0x2028, 0x2029, 0x202F, 0x205F, 0x3000, 0xFEFF].map Char.ofNat

def isSpace (c : Char) : Bool := whiteSpace.contains c

/-- `toUpperCase`. Outside ASCII the dotless i is the only letter whose upper case occurs
in the name of an operation. -/
def upperCase (c : Char) : Char := if c = Char.ofNat 0x131 then 'I' else c.toUpper

/-- The number behind the sign; radix 0 is 10. The prefix is accepted for the radices 0
and 16, and no others are used. -/
def parseNumeral (radix : ℕ) : List Char → Option ℕ
  | '0' :: 'x' :: digits => Lexical.read 16 digits
  | '0' :: 'X' :: digits => Lexical.read 16 digits
  | digits => Lexical.read (if radix = 0 then 10 else radix) digits

/-- The magnitude from which on the page has no finite number. -/
@[irreducible] def numberLimit : ℕ := 2 ^ 1024 - 2 ^ 970

def PageNumber.ofNumeral (negative : Bool) : Option ℕ → PageNumber
  | none => .nan
  | some n =>
      if numberLimit ≤ n then .infinity negative else .int (if negative then -(n : ℤ) else n)

/-- `parseInt`. -/
def parseInt (text : List Char) (radix : ℕ) : PageNumber :=
  match text.dropWhile isSpace with
  | '-' :: rest => .ofNumeral true (parseNumeral radix rest)
  | '+' :: rest => .ofNumeral false (parseNumeral radix rest)
  | rest => .ofNumeral false (parseNumeral radix rest)

/-- `odExec` up to the request. Nothing is sent without an address. -/
def odExec (line : String) : Option OdBody :=
  let raw := trim isSpace line.toList
  match words isSpace raw with
  | op :: addr :: rest =>
      let is := addr.splitOnP (· == ':')
      let sub := is.getD 1 []
      some
        { op := String.ofList (op.map upperCase)
          index := parseInt (is.headD []) 16
          subindex := parseInt (if sub.isEmpty then ['0'] else sub) 16
          value :=
            match rest with
            | [] => .int 0
            | value :: _ => parseInt value 0 }
  | _ => none

/-- `toString` in a radix up to 16. -/
def numberText (radix : ℕ) : PageNumber → List Char
  | .nan => "NaN".toList
  | .infinity negative => (if negative then "-Infinity" else "Infinity").toList
  | .int n =>
      let digits := Nat.toDigits radix n.natAbs
      if n < 0 then '-' :: digits else digits

/-- A number in the log, decimal. -/
def decimalText (n : PageNumber) : String := String.ofList (numberText 10 n)

/-- The same in hexadecimal digits and capitals. -/
def hexText (n : PageNumber) : List Char := (numberText 16 n).map Char.toUpper

def padStart (width : ℕ) (text : List Char) : List Char :=
  List.replicate (width - text.length) '0' ++ text

namespace OdBody

/-- The address in the log. -/
def addr (body : OdBody) : String :=
  "0x" ++ String.ofList (padStart 4 (hexText body.index)) ++
    ":0x" ++ String.ofList (padStart 2 (hexText body.subindex))

/-- `do_POST` on `/api/od` and `od_access` up to the call. -/
def odAccess (body : OdBody) : OdOutcome :=
  match body.index, body.subindex, body.value with
  | .int index, .int subindex, .int value =>
      let fits := 0 ≤ index ∧ index < 65536 ∧ 0 ≤ subindex ∧ subindex < 256
      if body.op = "READ" then
        if fits then .called (.read (.ofNat index.toNat) (.ofNat subindex.toNat)) else .raised
      else if body.op = "WRITE" then
        if fits ∧ -2147483648 ≤ value ∧ value < 2147483648 then
          .called (.write (.ofNat index.toNat) (.ofNat subindex.toNat) (.ofInt value))
        else .raised
      else .unknownOp body.op
  | _, _, _ => .raised

/-- What the log shows of a result behind its time stamp. -/
def message (body : OdBody) (d : OdResult) : String :=
  if d.success then
    if body.op = "READ" then
      "[OD] READ  " ++ body.addr ++ " = " ++ decimalText (.int d.value.toInt) ++
        " (0x" ++ String.ofList (hexText (.int d.value.toInt)) ++ ")"
    else "[OD] WRITE " ++ body.addr ++ " = " ++ decimalText body.value ++ " OK"
  else "[OD] " ++ body.op ++ " " ++ body.addr ++ " FAILED: " ++ d.message

end OdBody

/-- The result of a call, which is given up after two seconds. -/
def odResult : Option OdResponse → OdResult
  | none => { success := false, message := "timeout" }
  | some (.read response) =>
      { success := response.success, value := response.value, message := response.message }
  | some (.write response) => { success := response.success, message := response.message }

end Page

section Typed

/-- A numeral with digits in either case: of the radix, or hexadecimal behind `0x`. -/
inductive Numeral (radix : ℕ) : List Char → ℕ → Prop where
  | plain {digits : List Char} (hNonempty : digits ≠ [])
      (hDigits : ∀ c ∈ digits, digitValue c < radix) :
      Numeral radix digits (Lexical.value radix digits)
  | hex {x : Char} {digits : List Char} (hMark : x = 'x' ∨ x = 'X') (hNonempty : digits ≠ [])
      (hDigits : ∀ c ∈ digits, digitValue c < 16) :
      Numeral radix ('0' :: x :: digits) (Lexical.value 16 digits)

inductive IntNumeral : List Char → ℤ → Prop where
  | unsigned {text : List Char} {n : ℕ} (h : Numeral 10 text n) : IntNumeral text n
  | plus {text : List Char} {n : ℕ} (h : Numeral 10 text n) : IntNumeral ('+' :: text) n
  | minus {text : List Char} {n : ℕ} (h : Numeral 10 text n) : IntNumeral ('-' :: text) (-n)

/-- An address; the subindex may be left out. -/
inductive AddressText : List Char → ℕ → ℕ → Prop where
  | index {text : List Char} {n : ℕ} (h : Numeral 16 text n) : AddressText text n 0
  | colon {text : List Char} {n : ℕ} (h : Numeral 16 text n) : AddressText (text ++ [':']) n 0
  | full {text sub : List Char} {n m : ℕ} (h : Numeral 16 text n) (hSub : Numeral 16 sub m) :
      AddressText (text ++ ':' :: sub) n m

/-- The rest of a line; the value may be left out. -/
inductive ValueText : List Char → ℤ → Prop where
  | absent {trail : List Char} (hTrail : ∀ c ∈ trail, isSpace c) : ValueText trail 0
  | given {gap text trail : List Char} {value : ℤ} (hGap : gap ≠ [])
      (hSpace : ∀ c ∈ gap, isSpace c) (h : IntNumeral text value)
      (hTrail : ∀ c ∈ trail, isSpace c) : ValueText (gap ++ (text ++ trail)) value

/-- A line with an operation in either case, an address and maybe a value. -/
inductive LineText (op : String) (n m : ℕ) (value : ℤ) : List Char → Prop where
  | line {lead name gap addr rest : List Char} (hLead : ∀ c ∈ lead, isSpace c)
      (hName : name.map upperCase = op.toList) (hGap : gap ≠ []) (hSpace : ∀ c ∈ gap, isSpace c)
      (hAddr : AddressText addr n m) (hRest : ValueText rest value) :
      LineText op n m value (lead ++ (name ++ (gap ++ (addr ++ rest))))

/-- The lines that spell a request. The value of a read is ignored, but must be finite. -/
inductive OdRequest.Spelled : OdRequest → String → Prop where
  | read {index : UInt16} {subindex : UInt8} {value : ℤ} {line : String}
      (h : LineText "READ" index.toNat subindex.toNat value line.toList)
      (hFinite : value.natAbs < numberLimit) :
      Spelled (.read index subindex) line
  | write {index : UInt16} {subindex : UInt8} {value : OdValue} {line : String}
      (h : LineText "WRITE" index.toNat subindex.toNat value.toInt line.toList) :
      Spelled (.write index subindex value) line

end Typed

section Characters

theorem isSpace_blank : ∀ c ∈ [' '], isSpace c = true := List.all_eq_true.mp (by decide)

theorem isSpace_eq_false_of_any {word : List Char} (h : word.any isSpace = false) :
    ∀ c ∈ word, isSpace c = false :=
  fun c hMem => Bool.eq_false_iff.mpr (List.any_eq_false.mp h c hMem)

/-- The characters of numerals are neither white space nor separators nor signs. -/
theorem digitValue_of_isSpace {c : Char} (h : isSpace c) : digitValue c = 36 := by
  have hSpaces : whiteSpace.all (digitValue · == 36) = true := by decide
  exact beq_iff_eq.mp (List.all_eq_true.mp hSpaces c (List.contains_iff_mem.mp h))

theorem isSpace_of_digitValue {c : Char} (h : digitValue c < 36) : isSpace c = false := by
  by_contra hSpace
  rw [Bool.not_eq_false] at hSpace
  exact absurd (digitValue_of_isSpace hSpace) h.ne

theorem upperCase_of_isSpace {c : Char} (h : isSpace c) : upperCase c = c := by
  have hSpaces : whiteSpace.all (fun c => upperCase c == c) = true := by decide
  exact beq_iff_eq.mp (List.all_eq_true.mp hSpaces c (List.contains_iff_mem.mp h))

/-- The name of an operation is one word. -/
theorem isSpace_of_map_upperCase {op : String} (hOp : op = "READ" ∨ op = "WRITE")
    {name : List Char} (hName : name.map upperCase = op.toList) :
    name ≠ [] ∧ ∀ c ∈ name, isSpace c = false := by
  have hLetters : op.toList ≠ [] ∧ op.toList.all (fun c => !isSpace c) = true := by
    rcases hOp with rfl | rfl <;> decide
  constructor
  · rintro rfl
    exact hLetters.1 hName.symm
  · intro c hMem
    by_contra hSpace
    rw [Bool.not_eq_false] at hSpace
    have hLetter : upperCase c ∈ op.toList := hName ▸ List.mem_map_of_mem hMem
    rw [upperCase_of_isSpace hSpace] at hLetter
    have hNot := List.all_eq_true.mp hLetters.2 c hLetter
    rw [hSpace] at hNot
    cases hNot

end Characters

section Reading

theorem Numeral.digitValue_lt {radix n : ℕ} {text : List Char} (hRadix : radix ≤ 36)
    (h : Numeral radix text n) : ∀ c ∈ text, digitValue c < 36 := by
  cases h with
  | plain hNonempty hDigits => exact fun c hMem => (hDigits c hMem).trans_le hRadix
  | hex hMark hNonempty hDigits =>
      have hX : ∀ x : Char, x = 'x' ∨ x = 'X' → digitValue x < 36 := by
        rintro x (rfl | rfl) <;> decide
      rw [List.forall_mem_cons, List.forall_mem_cons]
      exact ⟨by decide, hX _ hMark, fun c hMem => (hDigits c hMem).trans (by decide)⟩

theorem Numeral.ne_nil {radix n : ℕ} {text : List Char} (h : Numeral radix text n) :
    text ≠ [] := by
  cases h with
  | plain hNonempty hDigits => exact hNonempty
  | hex hMark hNonempty hDigits => exact List.cons_ne_nil _ _

/-- A numeral of the radix, or a prefixed one, is read as the page reads it. -/
theorem parseNumeral_numeral {radix param n : ℕ} {text : List Char}
    (hParam : (if param = 0 then 10 else param) = radix) (hRadix : radix ≤ 16)
    (h : Numeral radix text n) : parseNumeral param text = some n := by
  cases h with
  | plain hNonempty hDigits =>
      rw [parseNumeral, hParam]
      · exact read_of_forall hNonempty hDigits
      · rintro digits rfl
        exact absurd ((hDigits 'x' (by simp)).trans_le hRadix) (by decide)
      · rintro digits rfl
        exact absurd ((hDigits 'X' (by simp)).trans_le hRadix) (by decide)
  | hex hMark hNonempty hDigits =>
      rcases hMark with rfl | rfl <;> exact read_of_forall hNonempty hDigits

/-- The numbers of all accesses are finite. -/
theorem lt_numberLimit {n : ℕ} (h : n ≤ 2 ^ 31) : n < numberLimit :=
  h.trans_lt (by decide +kernel)

theorem natAbs_toInt_lt_numberLimit (data : OdValue) : data.toInt.natAbs < numberLimit := by
  have hLower := data.le_toInt
  have hUpper := data.toInt_lt
  exact lt_numberLimit (by omega)

theorem PageNumber.ofNumeral_some (negative : Bool) {n : ℕ} (h : n < numberLimit) :
    ofNumeral negative (some n) = .int (if negative then -(n : ℤ) else n) :=
  if_neg (not_le.mpr h)

/-- A numeral has no sign of its own. -/
theorem parseInt_numeral {radix param n : ℕ} {text : List Char}
    (hParam : (if param = 0 then 10 else param) = radix) (hRadix : radix ≤ 16)
    (h : Numeral radix text n) (hFinite : n < numberLimit) : parseInt text param = .int n := by
  have hChars := h.digitValue_lt (hRadix.trans (by decide))
  have hRead := parseNumeral_numeral hParam hRadix h
  cases text with
  | nil => exact absurd rfl h.ne_nil
  | cons c rest =>
      have hFirst := hChars c List.mem_cons_self
      rw [parseInt, List.dropWhile_cons_of_neg (by simp [isSpace_of_digitValue hFirst])]
      split
      next rest' hMinus =>
        obtain ⟨rfl, -⟩ := List.cons.inj hMinus
        exact absurd hFirst (by decide)
      next rest' hPlus =>
        obtain ⟨rfl, -⟩ := List.cons.inj hPlus
        exact absurd hFirst (by decide)
      next => rw [hRead, PageNumber.ofNumeral_some false hFinite]; rfl

theorem parseInt_intNumeral {text : List Char} {value : ℤ} (h : IntNumeral text value)
    (hFinite : value.natAbs < numberLimit) : parseInt text 0 = .int value := by
  have hRead {text : List Char} {n : ℕ} (h : Numeral 10 text n) : parseNumeral 0 text = some n :=
    parseNumeral_numeral rfl (by decide) h
  cases h with
  | unsigned h => exact parseInt_numeral rfl (by decide) h hFinite
  | @plus text n h =>
      have hPlus : parseInt ('+' :: text) 0 = .ofNumeral false (parseNumeral 0 text) := rfl
      rw [hPlus, hRead h]
      exact PageNumber.ofNumeral_some false hFinite
  | @minus text n h =>
      have hMinus : parseInt ('-' :: text) 0 = .ofNumeral true (parseNumeral 0 text) := rfl
      rw [Int.natAbs_neg] at hFinite
      rw [hMinus, hRead h]
      exact PageNumber.ofNumeral_some true hFinite

/-- A value is one word. -/
theorem IntNumeral.isWord {text : List Char} {value : ℤ} (h : IntNumeral text value) :
    text ≠ [] ∧ ∀ c ∈ text, isSpace c = false := by
  have hDigits {text : List Char} {n : ℕ} (h : Numeral 10 text n) :
      ∀ c ∈ text, isSpace c = false :=
    fun c hMem => isSpace_of_digitValue (h.digitValue_lt (by decide) c hMem)
  cases h with
  | unsigned h => exact ⟨h.ne_nil, hDigits h⟩
  | plus h => exact ⟨List.cons_ne_nil _ _, List.forall_mem_cons.mpr ⟨by decide, hDigits h⟩⟩
  | minus h => exact ⟨List.cons_ne_nil _ _, List.forall_mem_cons.mpr ⟨by decide, hDigits h⟩⟩

/-- An address is one word, and its parts are read. -/
theorem AddressText.isWord {addr : List Char} {n m : ℕ} (h : AddressText addr n m) :
    addr ≠ [] ∧ ∀ c ∈ addr, isSpace c = false := by
  have hDigits {text : List Char} {n : ℕ} (h : Numeral 16 text n) :
      ∀ c ∈ text, isSpace c = false :=
    fun c hMem => isSpace_of_digitValue (h.digitValue_lt (by decide) c hMem)
  have hColon : isSpace ':' = false := by decide
  cases h with
  | index h => exact ⟨h.ne_nil, hDigits h⟩
  | colon h =>
      exact ⟨List.append_ne_nil_of_left_ne_nil h.ne_nil _,
        List.forall_mem_append.mpr ⟨hDigits h, List.forall_mem_singleton.mpr hColon⟩⟩
  | full h hSub =>
      exact ⟨List.append_ne_nil_of_left_ne_nil h.ne_nil _,
        List.forall_mem_append.mpr ⟨hDigits h, List.forall_mem_cons.mpr ⟨hColon, hDigits hSub⟩⟩⟩

theorem AddressText.splitOnP {addr : List Char} {n m : ℕ} (h : AddressText addr n m)
    (hIndex : n < numberLimit) (hSubindex : m < numberLimit) :
    let is := addr.splitOnP (· == ':')
    let sub := is.getD 1 []
    parseInt (is.headD []) 16 = .int n ∧
      parseInt (if sub.isEmpty then ['0'] else sub) 16 = .int m := by
  have hNoColon {text : List Char} {n : ℕ} (h : Numeral 16 text n) :
      ∀ c ∈ text, (c == ':') = false := by
    intro c hMem
    by_contra hColon
    rw [Bool.not_eq_false, beq_iff_eq] at hColon
    exact absurd (hColon ▸ h.digitValue_lt (by decide) c hMem) (by decide)
  have hRead {text : List Char} {n : ℕ} (h : Numeral 16 text n) (hFinite : n < numberLimit) :
      parseInt text 16 = .int n := parseInt_numeral rfl (by decide) h hFinite
  have hZero : parseInt ['0'] 16 = .int 0 := by decide +kernel
  cases h with
  | index h =>
      rw [List.splitOnP_eq_singleton (hNoColon h)]
      exact ⟨hRead h hIndex, hZero⟩
  | @colon text n h =>
      rw [List.splitOnP_append_cons_of_forall_mem (hNoColon h) ':' rfl]
      exact ⟨hRead h hIndex, hZero⟩
  | @full text sub n m h hSub =>
      rw [List.splitOnP_append_cons_of_forall_mem (hNoColon h) ':' rfl,
        List.splitOnP_eq_singleton (hNoColon hSub)]
      have hSome : sub.isEmpty = false := List.isEmpty_eq_false_iff.mpr hSub.ne_nil
      simp only [List.headD_cons, List.getD_cons_succ, List.getD_cons_zero, hSome]
      exact ⟨hRead h hIndex, hRead hSub hSubindex⟩

/-- The words behind the address. -/
theorem ValueText.words_append {addr rest : List Char} {value : ℤ} (hNonempty : addr ≠ [])
    (hAddr : ∀ c ∈ addr, isSpace c = false) (h : ValueText rest value)
    (hFinite : value.natAbs < numberLimit) :
    ∃ values, words isSpace (addr ++ rest) = addr :: values ∧
      (match values with
        | [] => PageNumber.int 0
        | text :: _ => parseInt text 0) = .int value := by
  cases h with
  | absent hTrail =>
      exact ⟨[], by rw [words_append_space hTrail, words_of_forall hNonempty hAddr], rfl⟩
  | @given gap text trail value hGap hSpace h hTrail =>
      refine ⟨[text], ?_, parseInt_intNumeral h hFinite⟩
      rw [words_append_gap hNonempty hAddr hGap hSpace, words_append_space hTrail,
        words_of_forall h.isWord.1 h.isWord.2]

/-- What a line that spells a command is read as. -/
theorem odExec_of_lineText {op line : String} {n m : ℕ} {value : ℤ}
    (hOp : op = "READ" ∨ op = "WRITE") (h : LineText op n m value line.toList)
    (hIndex : n < numberLimit) (hSubindex : m < numberLimit)
    (hFinite : value.natAbs < numberLimit) :
    odExec line = some ⟨op, .int n, .int m, .int value⟩ := by
  generalize hText : line.toList = text at h
  obtain @⟨lead, name, gap, addr, rest, hLead, hName, hGap, hSpace, hAddr, hRest⟩ := h
  obtain ⟨hNameNonempty, hNameWord⟩ := isSpace_of_map_upperCase hOp hName
  obtain ⟨values, hWords, hValue⟩ := hRest.words_append hAddr.isWord.1 hAddr.isWord.2 hFinite
  obtain ⟨hIndexText, hSubText⟩ := hAddr.splitOnP hIndex hSubindex
  have hLine : words isSpace (trim isSpace line.toList) = name :: addr :: values := by
    rw [words_trim, hText, words_space_append hLead,
      words_append_gap hNameNonempty hNameWord hGap hSpace, hWords]
  simp only [odExec, hLine, hName, hIndexText, hSubText, String.ofList_toList]
  exact congrArg (fun value => some (OdBody.mk op (.int n) (.int m) value)) hValue

end Reading

namespace OdRequest

/-- The operation of a request in the log. -/
def op : OdRequest → String
  | .read _ _ => "READ"
  | .write _ _ _ => "WRITE"

def index : OdRequest → UInt16
  | .read index _ | .write index _ _ => index

def subindex : OdRequest → UInt8
  | .read _ subindex | .write _ subindex _ => subindex

theorem op_cases (req : OdRequest) : req.op = "READ" ∨ req.op = "WRITE" := by
  cases req with
  | read index subindex => exact Or.inl rfl
  | write index subindex data => exact Or.inr rfl

/-- The address of a request, as the messages of the simulator have it. -/
def address (req : OdRequest) : String := hex16 req.index ++ ":" ++ hex8 req.subindex

end OdRequest

section Calls

/-- The values that a command for a request may carry. -/
def OdRequest.Takes (value : ℤ) : OdRequest → Prop
  | .read _ _ => True
  | .write _ _ data => data.toInt = value

theorem OdBody.odAccess_read (index : UInt16) (subindex : UInt8) (value : ℤ) :
    odAccess ⟨"READ", .int index.toNat, .int subindex.toNat, .int value⟩ =
      .called (.read index subindex) := by
  have hIndex := index.toNat_lt
  have hSub := subindex.toNat_lt
  have hFits : (0 : ℤ) ≤ index.toNat ∧ (index.toNat : ℤ) < 65536 ∧
      (0 : ℤ) ≤ subindex.toNat ∧ (subindex.toNat : ℤ) < 256 := by omega
  simp only [odAccess]
  rw [if_pos trivial, if_pos hFits, Int.toNat_natCast, Int.toNat_natCast, UInt16.ofNat_toNat,
    UInt8.ofNat_toNat]

theorem OdBody.odAccess_write (index : UInt16) (subindex : UInt8) (data : OdValue) :
    odAccess ⟨"WRITE", .int index.toNat, .int subindex.toNat, .int data.toInt⟩ =
      .called (.write index subindex data) := by
  have hIndex := index.toNat_lt
  have hSub := subindex.toNat_lt
  have hFits : (0 : ℤ) ≤ index.toNat ∧ (index.toNat : ℤ) < 65536 ∧
      (0 : ℤ) ≤ subindex.toNat ∧ (subindex.toNat : ℤ) < 256 := by omega
  have hOp : ("WRITE" = "READ") = False := by simp
  simp only [odAccess, hOp, if_false]
  rw [if_pos trivial, if_pos ⟨hFits, data.le_toInt, data.toInt_lt⟩, Int.toNat_natCast,
    Int.toNat_natCast, UInt16.ofNat_toNat, UInt8.ofNat_toNat, Int32.ofInt_toInt]

/-- The commands that lead to a call. -/
theorem OdBody.odAccess_eq_called_iff {body : OdBody} {req : OdRequest} :
    body.odAccess = .called req ↔
      ∃ value : ℤ, req.Takes value ∧
        body = ⟨req.op, .int req.index.toNat, .int req.subindex.toNat, .int value⟩ := by
  constructor
  · intro h
    obtain ⟨op, index, subindex, value⟩ := body
    have hIndex {index : ℤ} (hLow : 0 ≤ index) (hHigh : index < 65536) :
        ((UInt16.ofNat index.toNat).toNat : ℤ) = index := by
      rw [UInt16.toNat_ofNat_of_lt' (Int.toNat_lt hLow |>.mpr hHigh), Int.toNat_of_nonneg hLow]
    have hSub {subindex : ℤ} (hLow : 0 ≤ subindex) (hHigh : subindex < 256) :
        ((UInt8.ofNat subindex.toNat).toNat : ℤ) = subindex := by
      rw [UInt8.toNat_ofNat_of_lt' (Int.toNat_lt hLow |>.mpr hHigh), Int.toNat_of_nonneg hLow]
    simp only [odAccess] at h
    split at h
    next index subindex value =>
      split at h
      next hOp =>
        split at h
        next hFits =>
          obtain rfl := OdOutcome.called.inj h
          refine ⟨value, trivial, ?_⟩
          simp only [OdRequest.op, OdRequest.index, OdRequest.subindex, hOp,
            hIndex hFits.1 hFits.2.1, hSub hFits.2.2.1 hFits.2.2.2]
        next => cases h
      next =>
        split at h
        next hOp =>
          split at h
          next hFits =>
            obtain ⟨⟨hIndexLow, hIndexHigh, hSubLow, hSubHigh⟩, hLow, hHigh⟩ := hFits
            obtain rfl := OdOutcome.called.inj h
            refine ⟨value, Int32.toInt_ofInt_of_le hLow hHigh, ?_⟩
            simp only [OdRequest.op, OdRequest.index, OdRequest.subindex, hOp,
              hIndex hIndexLow hIndexHigh, hSub hSubLow hSubHigh]
          next => cases h
        next => cases h
    next => cases h
  · rintro ⟨value, hTakes, rfl⟩
    cases req with
    | read index subindex => exact odAccess_read index subindex value
    | write index subindex data =>
        obtain rfl : data.toInt = value := hTakes
        exact odAccess_write index subindex data

/-- A line with the operation, the address and a value of a request leads to its call. -/
theorem OdRequest.called_of_lineText {req : OdRequest} {value : ℤ} {line : String}
    (h : LineText req.op req.index.toNat req.subindex.toNat value line.toList)
    (hTakes : req.Takes value) (hFinite : value.natAbs < numberLimit) :
    (odExec line).map OdBody.odAccess = some (.called req) := by
  have hIndexLt := req.index.toNat_lt
  have hSubindexLt := req.subindex.toNat_lt
  have hIndex : req.index.toNat < numberLimit := lt_numberLimit (by omega)
  have hSubindex : req.subindex.toNat < numberLimit := lt_numberLimit (by omega)
  rw [odExec_of_lineText req.op_cases h hIndex hSubindex hFinite, Option.map_some]
  exact congrArg some (OdBody.odAccess_eq_called_iff.mpr ⟨value, hTakes, rfl⟩)

/-- A line that spells a request leads to its call. -/
theorem spelled_line_calls {req : OdRequest} {line : String} (h : req.Spelled line) :
    (odExec line).map OdBody.odAccess = some (.called req) := by
  cases h with
  | read h hFinite => exact OdRequest.called_of_lineText h trivial hFinite
  | @write index subindex data line h =>
      exact OdRequest.called_of_lineText h rfl (natAbs_toInt_lt_numberLimit data)

/-- The Shutdown command in a sloppy spelling: the subindex is left out. -/
theorem spelled_line_calls_shutdown :
    (odExec " Write  6040: 0X06").map OdBody.odAccess =
      some (.called (.write Cia402Index.controlword 0 6)) := by
  have hDigits {digits : List Char} (h : digits.all (digitValue · < 16) = true) :
      ∀ c ∈ digits, digitValue c < 16 :=
    fun c hMem => of_decide_eq_true (List.all_eq_true.mp h c hMem)
  have hIndex : Numeral 16 ['6', '0', '4', '0'] 0x6040 := .plain (by decide) (hDigits (by decide))
  have hValue : Numeral 10 ['0', 'X', '0', '6'] 6 :=
    .hex (Or.inr rfl) (by decide) (hDigits (by decide))
  have hSpace : ∀ c ∈ [' ', ' '], isSpace c = true := List.all_eq_true.mp (by decide)
  have hRest : ValueText ([' '] ++ (['0', 'X', '0', '6'] ++ [])) 6 :=
    .given (by decide) isSpace_blank (.unsigned hValue) (fun c hMem => nomatch hMem)
  have hLine : LineText "WRITE" 0x6040 0 6
      ([' '] ++ (['W', 'r', 'i', 't', 'e'] ++ ([' ', ' '] ++
        ((['6', '0', '4', '0'] ++ [':']) ++ ([' '] ++ (['0', 'X', '0', '6'] ++ [])))))) :=
    .line isSpace_blank (by decide) (by decide) hSpace (.colon hIndex) hRest
  exact spelled_line_calls (.write hLine)

end Calls

section Shown

theorem hexText_natCast (n : ℕ) :
    hexText (.int (n : ℤ)) = (Nat.toDigits 16 n).map Char.toUpper := by
  rw [hexText, numberText, if_neg (Int.natCast_nonneg n).not_gt, Int.natAbs_natCast]

/-- What a command that leads to a call shows. -/
theorem OdBody.shown_of_called {body : OdBody} {req : OdRequest} (h : body.odAccess = .called req) :
    body.op = req.op ∧ body.addr = req.address ∧
      ∃ value : ℤ, req.Takes value ∧ body.value = .int value := by
  obtain ⟨value, hTakes, rfl⟩ := OdBody.odAccess_eq_called_iff.mp h
  refine ⟨rfl, ?_, value, hTakes, rfl⟩
  simp only [addr, OdRequest.address, hexText_natCast, padStart, hex16, hex8, hexString,
    String.append_assoc]
  rfl

theorem intNumeral_numberText (value : ℤ) : IntNumeral (numberText 10 (.int value)) value := by
  have hSpell : ∀ d < 10, digitValue (id d.digitChar) = d := by decide
  have hPlain (n : ℕ) : Numeral 10 (Nat.toDigits 10 n) n := by
    have hDigits := forall_mem_toDigits (by decide) id hSpell n
    have hValue := value_map_toDigits (by decide) id hSpell n
    rw [List.map_id] at hDigits hValue
    have hNumeral : Numeral 10 (Nat.toDigits 10 n) _ := .plain Nat.toDigits_ne_nil hDigits
    rwa [hValue] at hNumeral
  have hDigits := hPlain value.natAbs
  rw [numberText]
  split
  next hNegative =>
    have hMinus := IntNumeral.minus hDigits
    rwa [Int.ofNat_natAbs_of_nonpos hNegative.le, neg_neg] at hMinus
  next hNonneg =>
    have hUnsigned := IntNumeral.unsigned hDigits
    rwa [Int.natAbs_of_nonneg (not_lt.mp hNonneg)] at hUnsigned

/-- A padded number behind its mark is a numeral. -/
theorem numeral_hexString (width n : ℕ) : Numeral 16 (hexString width n).toList n := by
  have hSpell : ∀ d < 16, digitValue d.digitChar.toUpper = d :=
    fun d hDigit => digitValue_toUpper_digitChar hDigit
  have hDigits := forall_mem_toDigits (by decide) Char.toUpper hSpell n
  have hNonempty : (Nat.toDigits 16 n).map Char.toUpper ≠ [] := by simp [Nat.toDigits_ne_nil]
  have hNumeral : Numeral 16 _ _ :=
    .hex (Or.inl rfl) (List.append_ne_nil_of_right_ne_nil _ hNonempty)
      (forall_mem_replicate_zero_append (by decide)
        (width - ((Nat.toDigits 16 n).map Char.toUpper).length) hDigits)
  rw [value_replicate_zero_append, value_map_toDigits (by decide) Char.toUpper hSpell] at hNumeral
  rw [hexString, String.toList_append, String.toList_ofList, String.toList_ofList]
  exact hNumeral

namespace OdRequest

theorem addressText_address (req : OdRequest) :
    AddressText req.address.toList req.index.toNat req.subindex.toNat := by
  have hFull := AddressText.full (numeral_hexString 4 req.index.toNat)
    (numeral_hexString 2 req.subindex.toNat)
  rw [address, hex16, hex8, String.toList_append, String.toList_append, List.append_assoc]
  exact hFull

theorem op_map_upperCase (req : OdRequest) : req.op.toList.map upperCase = req.op.toList := by
  rcases req.op_cases with hOp | hOp <;> rw [hOp] <;> decide

/-- The result of an access in the log. -/
def message (req : OdRequest) (d : OdResult) : String :=
  match d.success, req with
  | true, .read _ _ =>
      "[OD] READ  " ++ req.address ++ " = " ++ decimalText (.int d.value.toInt) ++
        " (0x" ++ String.ofList (hexText (.int d.value.toInt)) ++ ")"
  | true, .write _ _ data =>
      "[OD] WRITE " ++ req.address ++ " = " ++ decimalText (.int data.toInt) ++ " OK"
  | false, _ => "[OD] " ++ req.op ++ " " ++ req.address ++ " FAILED: " ++ d.message

/-- The access with the value that a line without one stands for. -/
def withoutValue : OdRequest → OdRequest
  | .read index subindex => .read index subindex
  | .write index subindex _ => .write index subindex 0

/-- The value is not shown of a failed access. -/
theorem message_of_failed (req : OdRequest) {d : OdResult} (h : d.success = false) :
    req.message d = req.withoutValue.message d := by
  obtain ⟨success, value, text⟩ := d
  obtain rfl : success = false := h
  cases req <;> rfl

/-- A line that starts with a mark, the operation and the address. -/
theorem words_line (req : OdRequest) {gap : List Char} (hGap : gap ≠ [])
    (hSpace : ∀ c ∈ gap, isSpace c = true) (rest : List Char) :
    words isSpace ("[OD]".toList ++ ([' '] ++ (req.op.toList ++ (gap ++
      (req.address.toList ++ ([' '] ++ rest)))))) =
        "[OD]".toList :: req.op.toList :: req.address.toList :: words isSpace rest := by
  obtain ⟨hOp, hOpWord⟩ := isSpace_of_map_upperCase req.op_cases req.op_map_upperCase
  obtain ⟨hAddress, hAddressWord⟩ := req.addressText_address.isWord
  rw [words_append_gap (by decide) (isSpace_eq_false_of_any (by decide)) (by decide)
      isSpace_blank,
    words_append_gap hOp hOpWord hGap hSpace,
    words_append_gap hAddress hAddressWord (by decide) isSpace_blank]

/-- All lines do, and the one of a successful write goes on with the value. -/
theorem words_message (req : OdRequest) (d : OdResult) :
    ∃ rest, words isSpace (req.message d).toList =
      "[OD]".toList :: req.op.toList :: req.address.toList :: rest ∧
        (d.success = true → ∀ index subindex data, req = .write index subindex data →
          rest = ["=".toList, numberText 10 (.int data.toInt), "OK".toList]) := by
  have hTwo : ∀ c ∈ [' ', ' '], isSpace c = true := List.all_eq_true.mp (by decide)
  obtain ⟨success, shown, text⟩ := d
  cases success with
  | false =>
      have hText : (req.message ⟨false, shown, text⟩).toList =
          "[OD]".toList ++ ([' '] ++ (req.op.toList ++ ([' '] ++
            (req.address.toList ++ ([' '] ++ ("FAILED: ".toList ++ text.toList)))))) := by
        simp only [message, String.toList_append, List.append_assoc]
        rfl
      rw [hText, req.words_line (by decide) isSpace_blank]
      exact ⟨_, rfl, fun h => absurd h Bool.false_ne_true⟩
  | true =>
      cases req with
      | read index subindex =>
          have hText : (message (.read index subindex) ⟨true, shown, text⟩).toList =
              "[OD]".toList ++ ([' '] ++ ((op (.read index subindex)).toList ++ ([' ', ' '] ++
                ((address (.read index subindex)).toList ++ ([' '] ++ ("= " ++
                  decimalText (.int shown.toInt) ++ " (0x" ++
                    String.ofList (hexText (.int shown.toInt)) ++ ")").toList))))) := by
            have hMark : "[OD] READ  ".toList =
                "[OD]".toList ++ ([' '] ++ ("READ".toList ++ [' ', ' '])) := by decide
            have hEquals : " = ".toList = [' '] ++ "= ".toList := by decide
            simp only [message, op, String.toList_append, hMark, hEquals, List.append_assoc]
          rw [hText, words_line _ (by decide) hTwo]
          exact ⟨_, rfl, fun _ _ _ _ h => by cases h⟩
      | write index subindex data =>
          have hText : (message (.write index subindex data) ⟨true, shown, text⟩).toList =
              "[OD]".toList ++ ([' '] ++ ((op (.write index subindex data)).toList ++ ([' '] ++
                ((address (.write index subindex data)).toList ++ ([' '] ++ (['='] ++ ([' '] ++
                  (numberText 10 (.int data.toInt) ++ ([' '] ++ ['O', 'K']))))))))) := by
            have hMark : "[OD] WRITE ".toList =
                "[OD]".toList ++ ([' '] ++ ("WRITE".toList ++ [' '])) := by decide
            have hEquals : " = ".toList = [' '] ++ (['='] ++ [' ']) := by decide
            have hOk : " OK".toList = [' '] ++ ['O', 'K'] := by decide
            simp only [message, op, decimalText, String.toList_append, String.toList_ofList, hMark,
              hEquals, hOk, List.append_assoc]
          obtain ⟨hNumber, hNumberWord⟩ := (intNumeral_numberText data.toInt).isWord
          rw [hText, words_line _ (by decide) isSpace_blank,
            words_append_gap (by decide) (isSpace_eq_false_of_any (by decide)) (by decide)
              isSpace_blank,
            words_append_gap hNumber hNumberWord (by decide) isSpace_blank,
            words_of_forall (by decide) (isSpace_eq_false_of_any (by decide))]
          refine ⟨_, rfl, fun _ _ _ _ h => ?_⟩
          cases h
          rfl

/-- The operation and the address as a line, with or without a value. -/
theorem lineText (req : OdRequest) {rest : List Char} {value : ℤ} (hRest : ValueText rest value) :
    LineText req.op req.index.toNat req.subindex.toNat value
      ((req.op ++ " " ++ req.address).toList ++ rest) := by
  have hLine : LineText req.op _ _ value ([] ++ (_ ++ ([' '] ++ (_ ++ rest)))) :=
    .line (fun c hMem => absurd hMem List.not_mem_nil) req.op_map_upperCase (by decide)
      isSpace_blank req.addressText_address hRest
  simpa using hLine

end OdRequest

theorem OdBody.message_of_called {body : OdBody} {req : OdRequest} (h : body.odAccess = .called req)
    (d : OdResult) : body.message d = req.message d := by
  obtain ⟨hOp, hAddr, value, hTakes, hValue⟩ := OdBody.shown_of_called h
  obtain ⟨success, shown, text⟩ := d
  simp only [message, hOp, hAddr, hValue]
  cases success with
  | false => rfl
  | true =>
      cases req with
      | read index subindex => rfl
      | write index subindex data =>
          obtain rfl : data.toInt = value := hTakes
          rfl

/-- A word of a line in the log. -/
def wordOf (line : String) (i : ℕ) : String := String.ofList ((words isSpace line.toList).getD i [])

/-- What the log shows of an access depends on the access and its result alone, and shows no
value of one that failed. The operation and the address in it, typed as a line, lead to the
same access, which is a write of zero if the access is a write. Typed with the value that
the line of a successful write shows, they lead to that write. -/
theorem logged_access_calls_again {body : OdBody} {req : OdRequest}
    (h : body.odAccess = .called req) (d : OdResult) :
    let line := body.message d
    let access := wordOf line 1 ++ " " ++ wordOf line 2
    line = req.message d ∧
      (d.success = false → line = req.withoutValue.message d) ∧
      (odExec access).map OdBody.odAccess = some (.called req.withoutValue) ∧
      (d.success = true → ∀ index subindex data, req = .write index subindex data →
        (odExec (access ++ " " ++ wordOf line 4)).map OdBody.odAccess = some (.called req)) := by
  intro line access
  have hLine : line = req.message d := OdBody.message_of_called h d
  obtain ⟨rest, hWords, hRest⟩ := req.words_message d
  rw [← hLine] at hWords
  have hAccess : access = req.op ++ " " ++ req.address := by
    simp only [access, wordOf, hWords, List.getD_cons_succ, List.getD_cons_zero,
      String.ofList_toList]
  refine ⟨hLine, fun hFailed => hLine.trans (req.message_of_failed hFailed), ?_, ?_⟩
  · have hText := req.lineText (.absent fun c hMem => absurd hMem List.not_mem_nil)
    rw [List.append_nil, ← hAccess] at hText
    have hFinite : (0 : ℤ).natAbs < numberLimit := lt_numberLimit (by decide)
    cases req with
    | read index subindex => exact OdRequest.called_of_lineText hText trivial hFinite
    | write index subindex data =>
        have hZero : LineText (OdRequest.write index subindex 0).op index.toNat subindex.toNat 0
            access.toList := hText
        exact OdRequest.called_of_lineText hZero rfl hFinite
  · rintro hSuccess index subindex data rfl
    have hValue : ValueText ([' '] ++ (numberText 10 (.int data.toInt) ++ [])) data.toInt :=
      .given (by decide) isSpace_blank (intNumeral_numberText data.toInt)
        fun c hMem => absurd hMem List.not_mem_nil
    have hShown : access ++ " " ++ wordOf line 4 =
        String.ofList (access.toList ++ ([' '] ++ (numberText 10 (.int data.toInt) ++ []))) := by
      rw [wordOf, hWords, hRest hSuccess index subindex data rfl, ← String.toList_inj]
      simp
    have hText := OdRequest.lineText (.write index subindex data) hValue
    rw [← hAccess, ← String.toList_ofList (l := _ ++ _), ← hShown] at hText
    exact OdRequest.called_of_lineText hText rfl (natAbs_toInt_lt_numberLimit data)

/-- A Shutdown that succeeds and one that is refused, whose line shows no value. -/
theorem logged_access_calls_again_shutdown :
    let body : OdBody := ⟨"WRITE", .int 0x6040, .int 0, .int 6⟩
    let again (line : String) := wordOf line 1 ++ " " ++ wordOf line 2
    let done := body.message { success := true }
    let refused := body.message { success := false, message := "write failed" }
    done = "[OD] WRITE 0x6040:0x00 = 6 OK" ∧
      refused = "[OD] WRITE 0x6040:0x00 FAILED: write failed" ∧
      (odExec (again done ++ " " ++ wordOf done 4)).map OdBody.odAccess =
        some (.called (.write Cia402Index.controlword 0 6)) ∧
      (odExec (again refused)).map OdBody.odAccess =
        some (.called (.write Cia402Index.controlword 0 0)) := by
  intro body again done refused
  have hCall : body.odAccess = .called (.write Cia402Index.controlword 0 6) := by decide
  obtain ⟨hDone, -, -, hSame⟩ := logged_access_calls_again hCall { success := true }
  obtain ⟨hRefused, -, hZero, -⟩ :=
    logged_access_calls_again hCall { success := false, message := "write failed" }
  exact ⟨hDone.trans (by decide), hRefused.trans (by decide), hSame rfl _ _ _ rfl, hZero⟩

end Shown

section Answers
open Transition

/-- The manual services never succeed, so the log reports every access as failed. -/
theorem message_of_answer {R : Type} (A : DoubleArith R) (sim : DriveSimulator R)
    (events : List (NetworkEvent R)) {body : OdBody} {answered : ManualAnswer}
    (hAnswer : answered ∈ (run (ControllerNetwork.step A) { sim := sim } events).answers)
    (hCall : body.odAccess = .called answered.request) :
    body.message (odResult (some answered.response)) =
      "[OD] " ++ answered.request.op ++ " " ++ answered.request.address ++ " FAILED: " ++
        (match answered.request with
          | .read _ _ => "read failed"
          | .write _ _ _ => "write failed") := by
  rw [OdBody.message_of_called hCall,
    ControllerNetwork.run_refused A sim events answered hAnswer]
  cases answered.request with
  | read index subindex => rfl
  | write index subindex data => rfl

end Answers

end Ca1MotorCtrl
