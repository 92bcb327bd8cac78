import QueryExpr.Error
import QueryExpr.Proofs.Schema.Reading

/-!
# The binary form is exact

Bytes that start with the binary form of columns are read as these columns, and all others are
malformed. Columns that are read make a schema unless one of them has no name or the name of one
before it. So every list of bytes is a schema, malformed, or a list of columns with a first defect.

* `decodeColumns_eq_ok_iff`, `decodeColumns_eq_error_iff`: bytes that write columns, and others.
* `findDefect?_eq_some_iff`: the defect that is found.
* `ofBytes_exact`: **a schema is read from its bytes and from no others.**
-/

namespace QueryExpr

-- Powers are taken by the definition of the core library, whatever else is imported.
attribute [local instance (2000)] instPowNat

namespace Schema

/-! ## Schemas -/

/-- The columns are so many and so named that their number and the lengths can be written, as they
always can where lengths are numbers of 64 bits. -/
structure Fits (columns : List Column) : Prop where
  count : columns.length < 256 ^ lengthWidth
  names : ∀ c ∈ columns, NameFits c.name

/-- The binary form of columns, sound or not. -/
def bytesOf (columns : List Column) : List UInt8 :=
  littleEndian lengthWidth columns.length ++ columns.flatMap columnBytes

theorem toBytes_eq (s : Schema) : s.toBytes = bytesOf s.columns := rfl

/-- Bytes that do not start with the binary form of columns. -/
inductive Malformed : List UInt8 → DecodeError → Prop
  | count {bytes err} (h : CutShort lengthWidth bytes err) : Malformed bytes err
  | columns {count rest err} (hn : count < 256 ^ lengthWidth) (h : BadColumns count rest err) :
    Malformed (littleEndian lengthWidth count ++ rest) err

/-- **Columns are read from bytes that start with their binary form**, and from no others. -/
theorem decodeColumns_eq_ok_iff {bytes : List UInt8} {columns : List Column} :
    decodeColumns bytes = .ok columns ↔ Fits columns ∧ bytesOf columns <+: bytes := by
  rw [decodeColumns, (reads_number lengthWidth).bind_ok_iff]
  simp only [(reads_columns _).bind_ok_iff]
  constructor
  · rintro ⟨_, _, hcount, rfl, read, rest, ⟨rfl, hnames⟩, rfl, h⟩
    cases h
    exact ⟨⟨hcount, hnames⟩, rest, List.append_assoc ..⟩
  · rintro ⟨⟨hcount, hnames⟩, rest, rfl⟩
    exact ⟨_, _, hcount, List.append_assoc .., columns, rest, ⟨rfl, hnames⟩, rfl, rfl⟩

/-- **Malformed bytes are refused with their error**, and no others. -/
theorem decodeColumns_eq_error_iff {bytes : List UInt8} {err : DecodeError} :
    decodeColumns bytes = .error err ↔ Malformed bytes err := by
  rw [decodeColumns, (reads_number lengthWidth).bind_error_iff]
  simp only [(reads_columns _).bind_error_iff]
  constructor
  · rintro (h | ⟨_, _, hcount, rfl, h | ⟨_, _, -, -, h⟩⟩)
    · exact .count h
    · exact .columns hcount h
    · cases h
  · rintro (h | ⟨hcount, h⟩)
    · exact .inl h
    · exact .inr ⟨_, _, hcount, rfl, .inl h⟩

/-! ## Defects -/

/-- What is wrong with the first of some columns that may not follow those before it. -/
inductive Defective : List Column → SchemaDefect → Prop
  | empty (before after : List Column) {c : Column} (hsound : findDefect? before = none)
    (h : c.name = "") : Defective (before ++ c :: after) .emptyName
  | duplicate (before after : List Column) {c : Column} (hsound : findDefect? before = none)
    (hc : c.name ≠ "") (h : c.name ∈ before.map Column.name) :
    Defective (before ++ c :: after) (.duplicateName c.name)

/-- The columns that have passed take their names with them. -/
theorem findDefectFrom?_append {seen : List String} {before : List Column}
    (h : findDefectFrom? seen before = none) (rest : List Column) :
    findDefectFrom? seen (before ++ rest) =
      findDefectFrom? ((before.map Column.name).reverse ++ seen) rest := by
  induction before generalizing seen with
  | nil => rfl
  | cons c before ih =>
    rw [findDefectFrom?] at h
    split at h
    · cases h
    · next hempty =>
      split at h
      · cases h
      · next hseen =>
        rw [List.cons_append, findDefectFrom?, if_neg hempty, if_neg hseen, ih h, List.map_cons,
          List.reverse_cons, List.append_assoc, List.singleton_append]

theorem exists_first_defect {seen : List String} {columns : List Column} {d : SchemaDefect}
    (h : findDefectFrom? seen columns = some d) :
    ∃ before c after, columns = before ++ c :: after ∧ findDefectFrom? seen before = none ∧
      (c.name = "" ∧ d = .emptyName ∨
        c.name ≠ "" ∧ (c.name ∈ before.map Column.name ∨ c.name ∈ seen) ∧
          d = .duplicateName c.name) := by
  induction columns generalizing seen with
  | nil => cases h
  | cons c rest ih =>
    rw [findDefectFrom?] at h
    split at h
    · next hempty =>
      cases h
      exact ⟨[], c, rest, rfl, rfl, .inl ⟨hempty, rfl⟩⟩
    · next hempty =>
      split at h
      · next hseen =>
        cases h
        exact ⟨[], c, rest, rfl, rfl, .inr ⟨hempty, .inr hseen, rfl⟩⟩
      · next hseen =>
        obtain ⟨before, c', after, rfl, hsound, hd⟩ := ih h
        refine ⟨c :: before, c', after, rfl, ?_, ?_⟩
        · rw [findDefectFrom?, if_neg hempty, if_neg hseen, hsound]
        · rcases hd with hc | ⟨hc, hmem, hd⟩
          · exact .inl hc
          · refine .inr ⟨hc, ?_, hd⟩
            rw [List.mem_cons] at hmem
            rw [List.map_cons, List.mem_cons]
            rcases hmem with hbefore | hsame | hold
            · exact .inl (.inr hbefore)
            · exact .inl (.inl hsame)
            · exact .inr hold

/-- **The defect that is found is that of the first column that may not follow those before it.** -/
theorem findDefect?_eq_some_iff {columns : List Column} {d : SchemaDefect} :
    findDefect? columns = some d ↔ Defective columns d := by
  constructor
  · intro h
    obtain ⟨before, c, after, rfl, hsound, ⟨hc, rfl⟩ | ⟨hc, hmem, rfl⟩⟩ := exists_first_defect h
    · exact .empty before after hsound hc
    · exact .duplicate before after hsound hc (hmem.resolve_right List.not_mem_nil)
  · rintro (⟨before, after, hsound, hc⟩ | ⟨before, after, hsound, hc, hmem⟩)
    · rw [findDefect?, findDefectFrom?_append hsound, findDefectFrom?, if_pos hc]
    · rw [findDefect?, findDefectFrom?_append hsound, findDefectFrom?, if_neg hc, List.append_nil,
        if_pos (List.mem_reverse.mpr hmem)]

theorem ofColumns_eq_ok_iff {columns : List Column} {s : Schema} :
    ofColumns columns = .ok s ↔ s.columns = columns := by
  constructor
  · intro h
    unfold ofColumns at h
    split at h
    · cases h
      rfl
    · cases h
  · rintro rfl
    exact ofColumns_columns s

theorem ofColumns_eq_error_iff {columns : List Column} {d : SchemaDefect} :
    ofColumns columns = .error d ↔ Defective columns d := by
  rw [← findDefect?_eq_some_iff]
  unfold ofColumns
  split
  · next h => simp [h]
  · next defect h => simp [h]

/-! ## Loading -/

theorem ofBytes_of_decoded {bytes : List UInt8} {columns : List Column}
    (h : decodeColumns bytes = .ok columns) :
    ofBytes bytes = (ofColumns columns).mapError .unsound := by
  rw [ofBytes, h]

theorem ofBytes_of_failed {bytes : List UInt8} {fault : DecodeError}
    (h : decodeColumns bytes = .error fault) : ofBytes bytes = .error (.undecodable fault) := by
  rw [ofBytes, h]

theorem ofBytes_eq_ok_iff {bytes : List UInt8} {s : Schema} :
    ofBytes bytes = .ok s ↔ Fits s.columns ∧ s.toBytes <+: bytes := by
  rw [toBytes_eq, ← decodeColumns_eq_ok_iff]
  constructor
  · intro h
    cases hread : decodeColumns bytes with
    | error fault =>
      rw [ofBytes_of_failed hread] at h
      cases h
    | ok columns =>
      rw [ofBytes_of_decoded hread] at h
      cases hsound : ofColumns columns with
      | error defect =>
        rw [hsound] at h
        cases h
      | ok s' =>
        rw [hsound] at h
        cases h
        rw [ofColumns_eq_ok_iff.mp hsound]
  · intro h
    rw [ofBytes_of_decoded h, ofColumns_columns]
    rfl

theorem ofBytes_eq_error_iff {bytes : List UInt8} {err : LoadError} :
    ofBytes bytes = .error err ↔
      (∃ fault, err = .undecodable fault ∧ Malformed bytes fault) ∨
      ∃ columns defect, err = .unsound defect ∧ Fits columns ∧ bytesOf columns <+: bytes ∧
        Defective columns defect := by
  constructor
  · intro h
    cases hread : decodeColumns bytes with
    | error fault =>
      rw [ofBytes_of_failed hread] at h
      cases h
      exact .inl ⟨fault, rfl, decodeColumns_eq_error_iff.mp hread⟩
    | ok columns =>
      rw [ofBytes_of_decoded hread] at h
      obtain ⟨hfits, hwritten⟩ := decodeColumns_eq_ok_iff.mp hread
      cases hsound : ofColumns columns with
      | error defect =>
        rw [hsound] at h
        cases h
        exact .inr ⟨columns, defect, rfl, hfits, hwritten, ofColumns_eq_error_iff.mp hsound⟩
      | ok s =>
        rw [hsound] at h
        cases h
  · rintro (⟨fault, rfl, hbad⟩ | ⟨columns, defect, rfl, hfits, hwritten, hdefect⟩)
    · exact ofBytes_of_failed (decodeColumns_eq_error_iff.mpr hbad)
    · rw [ofBytes_of_decoded (decodeColumns_eq_ok_iff.mpr ⟨hfits, hwritten⟩),
        ofColumns_eq_error_iff.mpr hdefect]
      rfl

/-- **A schema is read from its bytes and from no others.** A schema is read back from its binary
form, provided that its lengths can be written. Bytes are a schema exactly if they start with its
binary form, and no column of it is without a name or shares one. All other bytes are refused:
bytes that do not start with the binary form of columns for what is wrong with them, and others for
the first column that may not follow those before it. -/
theorem ofBytes_exact :
    (∀ s : Schema, Fits s.columns → ofBytes s.toBytes = .ok s) ∧
    (∀ bytes s, ofBytes bytes = .ok s ↔ Fits s.columns ∧ s.toBytes <+: bytes) ∧
    (∀ bytes s, ofBytes bytes = .ok s →
      (∀ c ∈ s.columns, c.name ≠ "") ∧ (s.columns.map Column.name).Nodup) ∧
    ∀ bytes err, (ofBytes bytes).mapError Error.ofLoad = .error err ↔
      (∃ fault, err = .serialization fault ∧ Malformed bytes fault) ∨
      ∃ columns defect, err = .invalidSchema defect ∧ Fits columns ∧ bytesOf columns <+: bytes ∧
        Defective columns defect := by
  refine ⟨fun s hs => ofBytes_eq_ok_iff.mpr ⟨hs, List.prefix_rfl⟩, fun bytes s => ofBytes_eq_ok_iff,
    fun bytes s _ => ⟨s.named, s.distinct⟩, fun bytes err => ?_⟩
  have hload : (ofBytes bytes).mapError Error.ofLoad = .error err ↔
      ∃ e, ofBytes bytes = .error e ∧ Error.ofLoad e = err := by
    cases ofBytes bytes with
    | ok s => exact ⟨nofun, nofun⟩
    | error e => exact ⟨fun h => ⟨e, rfl, Except.error.inj h⟩, by rintro ⟨_, ⟨⟩, rfl⟩; rfl⟩
  rw [hload]
  simp only [ofBytes_eq_error_iff]
  constructor
  · rintro ⟨_, ⟨fault, rfl, hbad⟩ | ⟨columns, defect, rfl, hcolumns⟩, rfl⟩
    · exact .inl ⟨fault, rfl, hbad⟩
    · exact .inr ⟨columns, defect, rfl, hcolumns⟩
  · rintro (⟨fault, rfl, hbad⟩ | ⟨columns, defect, rfl, hcolumns⟩)
    · exact ⟨_, .inl ⟨fault, rfl, hbad⟩, rfl⟩
    · exact ⟨_, .inr ⟨columns, defect, rfl, hcolumns⟩, rfl⟩

/-- One integer column is read back, whatever follows its bytes; another last byte is refused, and
so is a second column of the same name. -/
theorem ofBytes_exact_key :
    ∃ (c : Column) (s : Schema), c = ⟨"key", .int64, false⟩ ∧ s.columns = [c] ∧ Fits s.columns ∧
      ofBytes s.toBytes = .ok s ∧ ofBytes (s.toBytes ++ [7]) = .ok s ∧
      (ofBytes (s.toBytes.dropLast ++ [2])).mapError Error.ofLoad =
        .error (.serialization (.badFlag 2)) ∧
      (ofBytes (bytesOf [c, c])).mapError Error.ofLoad =
        .error (.invalidSchema (.duplicateName "key")) := by
  obtain ⟨hback, hread, -, hrefused⟩ := ofBytes_exact
  have hname : NameFits "key" := by
    unfold NameFits
    decide
  have hone : Fits [⟨"key", .int64, false⟩] :=
    ⟨by decide, List.forall_mem_cons.mpr ⟨hname, nofun⟩⟩
  have htwo : Fits [⟨"key", .int64, false⟩, ⟨"key", .int64, false⟩] :=
    ⟨by decide, List.forall_mem_cons.mpr ⟨hname, hone.names⟩⟩
  refine ⟨_, ⟨[⟨"key", .int64, false⟩], by simp, by simp⟩, rfl, rfl, hone, hback _ hone,
    (hread _ _).mpr ⟨hone, List.prefix_append _ _⟩, ?_, ?_⟩
  · have hcolumn : BadColumn (nameBytes "key" ++ (typeBytes .int64 ++ [2])) (.badFlag 2) :=
      .flag hname (.other (by decide))
    have hmalformed := Malformed.columns (by decide) (.column [] Nat.zero_lt_one nofun hcolumn)
    exact (hrefused _ _).mpr (.inl ⟨_, rfl, hmalformed⟩)
  · exact (hrefused _ _).mpr (.inr ⟨_, _, rfl, htwo, List.prefix_rfl,
      .duplicate [⟨"key", .int64, false⟩] [] rfl (by decide) (by decide)⟩)

end Schema

end QueryExpr
