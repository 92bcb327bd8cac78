import QueryExpr.Schema.Bytes

/-!
# Reading the parts of a schema

A reader is paired with the writer of the same thing and with a description of the bytes that it
refuses. The pair agrees (`Reads`) when the reader takes off what the writer has written, only that
and whatever follows, and refuses with the error that the description gives. Readers are put
together as the binary form is: a length before a name, a name before a type, columns after their
number. Each kind of bytes that cannot be read stands as a constructor of its own.

* `Reads.bind_ok_iff`, `Reads.bind_error_iff`: how reading goes on.
* `reads_number`, `reads_name`, `reads_type`, `reads_flag`: the parts of a column.
* `reads_column`, `reads_columns`: **columns and lists of them are read as they are written.**
-/

namespace QueryExpr

-- Powers are taken by the definition of the core library, whatever else is imported.
attribute [local instance (2000)] instPowNat

namespace Text

/-- Bytes are read as a text exactly if they are what is written for it. -/
theorem decode?_eq_some_iff {bytes : List UInt8} {s : String} :
    decode? bytes = some s ↔ bytes = encode s := by
  constructor
  · intro h
    unfold decode? String.fromUTF8? at h
    split at h
    · cases h
      rfl
    · cases h
  · rintro rfl
    exact decode?_encode s

/-- What is wrong with bytes that are no text. -/
def faultOf (bytes : List UInt8) : Utf8Fault := (Utf8Fault.find? 0 0 bytes).getD ⟨0, none⟩

end Text

theorem ValueType.getElem?_all_iff {n : Nat} {t : ValueType} : all[n]? = some t ↔ n = t.index := by
  constructor
  · intro h
    have hplaces : ∀ i : Fin all.length, (i : Nat) = all[i].index := by decide
    obtain ⟨hn, rfl⟩ := List.getElem?_eq_some_iff.mp h
    exact hplaces ⟨n, hn⟩
  · rintro rfl
    exact getElem?_index t

namespace Schema

variable {α β : Type}

/-! ## Readers and writers -/

/-- A reader that takes off what a writer has written for something that fits, and refuses `Bad`
bytes with their error. -/
structure Reads (read : List UInt8 → Except DecodeError (α × List UInt8)) (Fits : α → Prop)
    (write : α → List UInt8) (Bad : List UInt8 → DecodeError → Prop) : Prop where
  ok_iff : ∀ {bytes a rest}, read bytes = .ok (a, rest) ↔ Fits a ∧ bytes = write a ++ rest
  error_iff : ∀ {bytes err}, read bytes = .error err ↔ Bad bytes err

namespace Reads

variable {read : List UInt8 → Except DecodeError (α × List UInt8)} {Fits : α → Prop}
  {write : α → List UInt8} {Bad : List UInt8 → DecodeError → Prop}
  {next : α × List UInt8 → Except DecodeError β} {bytes : List UInt8} {err : DecodeError}

/-- To read on is to succeed with what comes after something that was written. -/
theorem bind_ok_iff (h : Reads read Fits write Bad) {b : β} :
    read bytes >>= next = .ok b ↔
      ∃ a rest, Fits a ∧ bytes = write a ++ rest ∧ next (a, rest) = .ok b := by
  constructor
  · intro hb
    cases hread : read bytes with
    | error err =>
      rw [hread] at hb
      cases hb
    | ok r =>
      obtain ⟨a, rest⟩ := r
      obtain ⟨hfits, heq⟩ := h.ok_iff.mp hread
      rw [hread] at hb
      exact ⟨a, rest, hfits, heq, hb⟩
  · rintro ⟨a, rest, hfits, heq, hb⟩
    rw [h.ok_iff.mpr ⟨hfits, heq⟩]
    exact hb

/-- To read on fails at once or after something that was written. -/
theorem bind_error_iff (h : Reads read Fits write Bad) :
    read bytes >>= next = .error err ↔
      Bad bytes err ∨ ∃ a rest, Fits a ∧ bytes = write a ++ rest ∧ next (a, rest) = .error err := by
  constructor
  · intro he
    -- an error of the first reader is passed on, and one after it is that of the next
    cases hread : read bytes with
    | error err' =>
      rw [hread] at he
      cases he
      exact .inl (h.error_iff.mp hread)
    | ok r =>
      obtain ⟨a, rest⟩ := r
      obtain ⟨hfits, heq⟩ := h.ok_iff.mp hread
      rw [hread] at he
      exact .inr ⟨a, rest, hfits, heq, he⟩
  · rintro (hbad | ⟨a, rest, hfits, heq, he⟩)
    · rw [h.error_iff.mpr hbad]
      rfl
    · rw [h.ok_iff.mpr ⟨hfits, heq⟩]
      exact he

end Reads

/-! ## Numbers -/

theorem ofLittleEndian_lt (bytes : List UInt8) : ofLittleEndian bytes < 256 ^ bytes.length := by
  induction bytes with
  | nil => decide
  | cons b rest ih =>
    have hb := b.toNat_lt
    simp only [ofLittleEndian, List.foldr_cons, List.length_cons, Nat.pow_succ] at ih ⊢
    omega

theorem littleEndian_ofLittleEndian (bytes : List UInt8) :
    littleEndian bytes.length (ofLittleEndian bytes) = bytes := by
  induction bytes with
  | nil => rfl
  | cons b rest ih =>
    have hb := b.toNat_lt
    have hsplit : ofLittleEndian (b :: rest) = b.toNat + 256 * ofLittleEndian rest := rfl
    have hlow : (b.toNat + 256 * ofLittleEndian rest) % 256 = b.toNat := by omega
    have hhigh : (b.toNat + 256 * ofLittleEndian rest) / 256 = ofLittleEndian rest := by omega
    rw [List.length_cons, littleEndian, hsplit, hlow, hhigh, ih, UInt8.ofNat_toNat]

/-- The first bytes are taken off if there are enough of them. -/
theorem reads_bytes (error : DecodeError) (n : Nat) :
    Reads (takeBytes error n) (·.length = n) id
      fun bytes err => bytes.length < n ∧ err = error where
  ok_iff := by
    intro bytes taken rest
    unfold takeBytes
    constructor
    · intro h
      split at h
      · cases h
      · next hlen =>
        cases h
        exact ⟨by rw [List.length_take]; omega, (List.take_append_drop n bytes).symm⟩
    · rintro ⟨rfl, rfl⟩
      have hlen : ¬ (taken ++ rest).length < taken.length := by
        rw [List.length_append]
        omega
      rw [id, if_neg hlen, List.take_left, List.drop_left]
  error_iff := by
    intro bytes err
    unfold takeBytes
    split
    · next h => simp [h, eq_comm]
    · next h => simp [h]

/-- There are too few bytes for a number. -/
def CutShort (width : Nat) (bytes : List UInt8) (err : DecodeError) : Prop :=
  bytes.length < width ∧ err = .unexpectedEnd

theorem reads_number (width : Nat) :
    Reads (readNumber width) (· < 256 ^ width) (littleEndian width) (CutShort width) where
  ok_iff := by
    intro bytes n rest
    constructor
    · intro h
      rw [readNumber, (reads_bytes _ _).bind_ok_iff] at h
      obtain ⟨digits, rest', rfl, rfl, h⟩ := h
      cases h
      exact ⟨ofLittleEndian_lt digits, by rw [littleEndian_ofLittleEndian]; rfl⟩
    · rintro ⟨hn, rfl⟩
      exact readNumber_littleEndian width n rest hn
  error_iff := by
    intro bytes err
    rw [readNumber, (reads_bytes _ _).bind_error_iff]
    constructor
    · rintro (h | ⟨digits, rest, -, -, h⟩)
      · exact h
      · cases h
    · exact .inl

/-! ## The parts of a column -/

/-- The length of the name can be written. -/
def NameFits (name : String) : Prop := (Text.encode name).length < 256 ^ lengthWidth

/-- The bytes of a name. -/
def nameBytes (name : String) : List UInt8 :=
  littleEndian lengthWidth (Text.encode name).length ++ Text.encode name

/-- The bytes of a type. -/
def typeBytes (type : ValueType) : List UInt8 := littleEndian typeWidth type.index

/-- The byte that tells whether a column is nullable. -/
def flagByte (nullable : Bool) : UInt8 := if nullable then 1 else 0

theorem columnBytes_eq (c : Column) :
    columnBytes c = nameBytes c.name ++ typeBytes c.type ++ [flagByte c.nullable] := rfl

/-- Bytes that start with no name. -/
inductive BadName : List UInt8 → DecodeError → Prop
  | length {bytes err} (h : CutShort lengthWidth bytes err) : BadName bytes err
  | cut {n rest} (hn : n < 256 ^ lengthWidth) (h : rest.length < n) :
    BadName (littleEndian lengthWidth n ++ rest) .cutName
  | text {name rest} (hn : name.length < 256 ^ lengthWidth) (h : Text.decode? name = none) :
    BadName (littleEndian lengthWidth name.length ++ (name ++ rest)) (.badText (Text.faultOf name))

/-- Bytes that start with no type. -/
inductive BadType : List UInt8 → DecodeError → Prop
  | number {bytes err} (h : CutShort typeWidth bytes err) : BadType bytes err
  | unknown {n rest} (hn : n < 256 ^ typeWidth) (h : ValueType.all.length ≤ n) :
    BadType (littleEndian typeWidth n ++ rest) (.unknownType n)

/-- Bytes that do not start with zero or one. -/
inductive BadFlag : List UInt8 → DecodeError → Prop
  | missing : BadFlag [] .unexpectedEnd
  | other {byte rest} (h : 1 < byte.toNat) : BadFlag (byte :: rest) (.badFlag byte.toNat)

theorem reads_name : Reads readName NameFits nameBytes BadName where
  ok_iff := by
    intro bytes name rest
    rw [readName, (reads_number lengthWidth).bind_ok_iff]
    simp only [(reads_bytes _ _).bind_ok_iff]
    constructor
    · rintro ⟨_, _, hn, rfl, taken, rest', rfl, rfl, h⟩
      -- the bytes that the length takes in are text, and so they are what is written for it
      split at h
      · next hd =>
        cases h
        rw [Text.decode?_eq_some_iff] at hd
        subst hd
        exact ⟨hn, (List.append_assoc ..).symm⟩
      · cases h
    · rintro ⟨hn, rfl⟩
      refine ⟨_, Text.encode name ++ rest, hn, List.append_assoc .., Text.encode name, rest, rfl, rfl,
        ?_⟩
      rw [Text.decode?_encode]
      rfl
  error_iff := by
    intro bytes err
    rw [readName, (reads_number lengthWidth).bind_error_iff]
    simp only [(reads_bytes _ _).bind_error_iff]
    constructor
    · rintro (h | ⟨_, rest, hn, rfl, ⟨hlen, rfl⟩ | ⟨taken, rest', rfl, rfl, h⟩⟩)
      · exact .length h
      · exact .cut hn hlen
      · split at h
        · cases h
        · next hd =>
          cases h
          exact .text hn hd
    · rintro (h | ⟨hn, hlen⟩ | ⟨hn, hd⟩)
      · exact .inl h
      · exact .inr ⟨_, _, hn, rfl, .inl ⟨hlen, rfl⟩⟩
      · refine .inr ⟨_, _, hn, rfl, .inr ⟨_, _, rfl, rfl, ?_⟩⟩
        rw [hd]
        rfl

theorem reads_type : Reads readType (fun _ => True) typeBytes BadType where
  ok_iff := by
    intro bytes type rest
    rw [readType, (reads_number typeWidth).bind_ok_iff]
    constructor
    · rintro ⟨n, rest', -, rfl, h⟩
      dsimp only at h
      split at h
      · next ht =>
        cases h
        rw [ValueType.getElem?_all_iff.mp ht]
        exact ⟨trivial, rfl⟩
      · cases h
    · rintro ⟨-, rfl⟩
      have hn : type.index < 256 ^ typeWidth := by cases type <;> decide
      refine ⟨type.index, rest, hn, rfl, ?_⟩
      dsimp only
      rw [ValueType.getElem?_index]
      rfl
  error_iff := by
    intro bytes err
    rw [readType, (reads_number typeWidth).bind_error_iff]
    constructor
    · rintro (h | ⟨n, rest, hn, rfl, h⟩)
      · exact .number h
      · dsimp only at h
        split at h
        · cases h
        · next ht =>
          cases h
          exact .unknown hn (List.getElem?_eq_none_iff.mp ht)
    · rintro (h | ⟨hn, hall⟩)
      · exact .inl h
      · refine .inr ⟨_, _, hn, rfl, ?_⟩
        dsimp only
        rw [List.getElem?_eq_none_iff.mpr hall]
        rfl

theorem readFlag_cons (byte : UInt8) (rest : List UInt8) :
    readFlag (byte :: rest) =
      if byte = 0 then .ok (false, rest) else if byte = 1 then .ok (true, rest)
      else .error (.badFlag byte.toNat) := rfl

theorem reads_flag : Reads readFlag (fun _ => True) (fun b => [flagByte b]) BadFlag where
  ok_iff := by
    intro bytes nullable rest
    constructor
    · intro h
      match bytes with
      | [] => cases h
      | byte :: bytes =>
        rw [readFlag_cons] at h
        split at h
        · next hzero =>
          cases h
          exact ⟨trivial, by rw [hzero]; rfl⟩
        · split at h
          · next hone =>
            cases h
            exact ⟨trivial, by rw [hone]; rfl⟩
          · cases h
    · rintro ⟨-, rfl⟩
      cases nullable <;> rfl
  error_iff := by
    intro bytes err
    match bytes with
    | [] =>
      constructor
      · rintro ⟨⟩
        exact .missing
      · rintro ⟨⟩
        rfl
    | byte :: bytes =>
      rw [readFlag_cons]
      constructor
      · intro h
        split at h
        · cases h
        · next hzero =>
          split at h
          · cases h
          · next hone =>
            cases h
            rw [← UInt8.toNat_inj] at hzero hone
            exact .other (by simp at hzero hone; omega)
      · rintro ⟨⟩
        next hbyte =>
        have hzero : byte ≠ 0 := by rintro rfl; exact absurd hbyte (by decide)
        have hone : byte ≠ 1 := by rintro rfl; exact absurd hbyte (by decide)
        rw [if_neg hzero, if_neg hone]

/-! ## Columns -/

/-- Bytes that start with no column. -/
inductive BadColumn : List UInt8 → DecodeError → Prop
  | name {bytes err} (h : BadName bytes err) : BadColumn bytes err
  | type {name rest err} (hn : NameFits name) (h : BadType rest err) :
    BadColumn (nameBytes name ++ rest) err
  | flag {name type rest err} (hn : NameFits name) (h : BadFlag rest err) :
    BadColumn (nameBytes name ++ (typeBytes type ++ rest)) err

theorem reads_column : Reads readColumn (NameFits ·.name) columnBytes BadColumn where
  ok_iff := by
    intro bytes c rest
    rw [readColumn, reads_name.bind_ok_iff]
    simp only [reads_type.bind_ok_iff, reads_flag.bind_ok_iff]
    constructor
    · rintro ⟨name, _, hn, rfl, type, _, -, rfl, nullable, _, -, rfl, h⟩
      cases h
      exact ⟨hn, by simp only [columnBytes_eq, List.append_assoc]⟩
    · rintro ⟨hn, rfl⟩
      refine ⟨c.name, _, hn, ?_, c.type, _, trivial, rfl, c.nullable, rest, trivial, rfl, rfl⟩
      simp only [columnBytes_eq, List.append_assoc]
  error_iff := by
    intro bytes err
    rw [readColumn, reads_name.bind_error_iff]
    simp only [reads_type.bind_error_iff, reads_flag.bind_error_iff]
    constructor
    · rintro (h | ⟨name, _, hn, rfl, h | ⟨type, _, -, rfl, h | ⟨nullable, _, -, rfl, h⟩⟩⟩)
      · exact .name h
      · exact .type hn h
      · exact .flag hn h
      · cases h
    · rintro (h | ⟨hn, h⟩ | ⟨hn, h⟩)
      · exact .inl h
      · exact .inr ⟨_, _, hn, rfl, .inl h⟩
      · exact .inr ⟨_, _, hn, rfl, .inr ⟨_, _, trivial, rfl, .inl h⟩⟩

/-- Bytes that do not start with as many columns: after fewer of them there is none. -/
inductive BadColumns (count : Nat) : List UInt8 → DecodeError → Prop
  | column (before : List Column) {rest err} (hlen : before.length < count)
    (hnames : ∀ c ∈ before, NameFits c.name) (h : BadColumn rest err) :
    BadColumns count (before.flatMap columnBytes ++ rest) err

theorem badColumns_succ_iff {count : Nat} {bytes : List UInt8} {err : DecodeError} :
    BadColumns (count + 1) bytes err ↔
      BadColumn bytes err ∨ ∃ c rest, NameFits c.name ∧ bytes = columnBytes c ++ rest ∧
        BadColumns count rest err := by
  constructor
  · rintro ⟨before, hlen, hnames, h⟩
    -- either the first column is bad, or it stands before the one that is
    cases before with
    | nil => exact .inl h
    | cons c before =>
      have hc := List.forall_mem_cons.mp hnames
      have hfewer : before.length < count := Nat.lt_of_succ_lt_succ hlen
      exact .inr ⟨c, _, hc.1, List.append_assoc .., .column before hfewer hc.2 h⟩
  · rintro (h | ⟨c, _, hc, rfl, ⟨before, hlen, hnames, h⟩⟩)
    · exact .column [] (Nat.succ_pos count) nofun h
    · next rest =>
      have heq : columnBytes c ++ (before.flatMap columnBytes ++ rest) =
          (c :: before).flatMap columnBytes ++ rest := (List.append_assoc ..).symm
      have hall : ∀ d ∈ c :: before, NameFits d.name := List.forall_mem_cons.mpr ⟨hc, hnames⟩
      rw [heq]
      exact .column (c :: before) (Nat.succ_lt_succ hlen) hall h

theorem reads_columns (count : Nat) :
    Reads (readColumns count)
      (fun columns => columns.length = count ∧ ∀ c ∈ columns, NameFits c.name)
      (·.flatMap columnBytes) (BadColumns count) := by
  induction count with
  | zero =>
    refine ⟨?_, ?_⟩
    · intro bytes columns rest
      constructor
      · rintro ⟨⟩
        exact ⟨⟨rfl, nofun⟩, rfl⟩
      · rintro ⟨⟨hlen, -⟩, rfl⟩
        rw [List.length_eq_zero_iff.mp hlen]
        rfl
    · intro bytes err
      constructor
      · rintro ⟨⟩
      · rintro ⟨_, hlen, -, -⟩
        exact absurd hlen (Nat.not_lt_zero _)
  | succ count ih =>
    refine ⟨?_, ?_⟩
    · intro bytes columns rest
      rw [readColumns, reads_column.bind_ok_iff]
      simp only [ih.bind_ok_iff]
      constructor
      · rintro ⟨c, _, hc, rfl, more, rest, ⟨hlen, hnames⟩, rfl, h⟩
        cases h
        exact ⟨⟨congrArg Nat.succ hlen, List.forall_mem_cons.mpr ⟨hc, hnames⟩⟩,
          (List.append_assoc ..).symm⟩
      · rintro ⟨⟨hlen, hnames⟩, rfl⟩
        cases columns with
        | nil => cases hlen
        | cons c more =>
          have hc := List.forall_mem_cons.mp hnames
          exact ⟨c, _, hc.1, List.append_assoc .., more, rest, ⟨Nat.succ.inj hlen, hc.2⟩, rfl, rfl⟩
    · intro bytes err
      rw [readColumns, reads_column.bind_error_iff, badColumns_succ_iff]
      simp only [ih.bind_error_iff]
      refine or_congr_right (exists_congr fun c => exists_congr fun rest => ?_)
      refine and_congr_right fun _ => and_congr_right fun _ => ?_
      constructor
      · rintro (h | ⟨_, _, -, -, h⟩)
        · exact h
        · cases h
      · exact .inl

end Schema

end QueryExpr
