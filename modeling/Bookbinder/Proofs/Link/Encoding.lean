import Bookbinder.Link.Encoding
import Bookbinder.Proofs.Json.Reading

/-!
# Comments and constructs survive JSON

A comment whose positions fit into 64 bits, and every construct, is read back from what is written for
it, on one line or over several: `json_roundTrip`.

`ReadsBack write read a` is what is proved of each kind of record; texts are the base, optional values
and lists preserve it. The fields of a record are found under their names because no name comes twice
(`record?_fieldsOf`). A field may be left out, as the name of a construct is, and then stands for
`null`.
-/

namespace Bookbinder

namespace Json

/-! ## Records -/

/-- The fields of a record, those without a value left out. -/
def fieldsOf (names : List String) (values : List (Option Json)) : List (Text × Json) :=
  (names.zip values).filterMap fun f => f.2.map (f.1.toList, ·)

theorem filter_fieldsOf_of_not_mem {name : String} {names : List String} (hname : name ∉ names)
    (values : List (Option Json)) :
    (fieldsOf names values).filter (·.1 == name.toList) = [] := by
  rw [List.filter_eq_nil_iff]
  rintro ⟨key, value⟩ hmem heq
  obtain ⟨⟨other, value?⟩, hother, hfield⟩ := List.mem_filterMap.1 hmem
  obtain ⟨v, -, hv⟩ := Option.map_eq_some_iff.1 hfield
  obtain ⟨rfl, rfl⟩ := Prod.mk.inj hv
  obtain rfl : other = name := String.toList_inj.1 (by simpa using heq)
  exact hname (List.of_mem_zip hother).1

theorem record?_cons {name : String} {names : List String} {fields : List (Text × Json)}
    (value : Option Json) {values : List Json}
    (hfind : fields.filter (·.1 == name.toList) = value.toList.map (name.toList, ·))
    (hread : record? names (obj fields) = some values) :
    record? (name :: names) (obj fields) = some (value.getD null :: values) := by
  simp only [record?] at hread
  simp only [record?, List.mapM_cons, hfind, hread]
  cases value <;> rfl

/-- The values of the fields are found under their names, `null` for those that were left out. -/
theorem record?_fieldsOf {names : List String} (values : List (Option Json))
    (hlength : values.length = names.length) (hnames : names.Nodup) :
    record? names (obj (fieldsOf names values)) = some (values.map (·.getD null)) := by
  -- The names before the current one have been looked up, and do not come again.
  suffices h : ∀ before : List (Text × Json), (∀ f ∈ before, ∀ name ∈ names, f.1 ≠ name.toList) →
      record? names (obj (before ++ fieldsOf names values)) = some (values.map (·.getD null)) from
    h [] (by simp)
  induction names generalizing values with
  | nil =>
    intro before _
    rw [List.length_eq_zero_iff.1 hlength]
    rfl
  | cons name names ih =>
    intro before hbefore
    obtain ⟨hname, hnames⟩ := List.nodup_cons.1 hnames
    obtain ⟨value, values, rfl⟩ := List.exists_cons_of_length_eq_add_one hlength
    have hhead : before.filter (·.1 == name.toList) = [] := by
      rw [List.filter_eq_nil_iff]
      intro f hf heq
      exact hbefore f hf name List.mem_cons_self (by simpa using heq)
    have htail := filter_fieldsOf_of_not_mem hname values
    have hothers : ∀ f ∈ before, ∀ other ∈ names, f.1 ≠ other.toList :=
      fun f hf other hother => hbefore f hf other (List.mem_cons_of_mem name hother)
    cases value with
    | none =>
      show record? (name :: names) (obj (before ++ fieldsOf names values)) = _
      refine record?_cons none ?_ ?_
      · simp [hhead, htail]
      · exact ih values (by simpa using hlength) hnames before hothers
    | some v =>
      show record? (name :: names) (obj (before ++ (name.toList, v) :: fieldsOf names values)) = _
      refine record?_cons (some v) ?_ ?_
      · simp [hhead, htail]
      · have hnext : ∀ f ∈ before ++ [(name.toList, v)], ∀ other ∈ names, f.1 ≠ other.toList := by
          intro f hf other hother heq
          rcases List.mem_append.1 hf with hf | hf
          · exact hothers f hf other hother heq
          · rw [List.mem_singleton.1 hf] at heq
            exact hname (String.toList_inj.1 heq ▸ hother)
        simpa using ih values (by simpa using hlength) hnames _ hnext

theorem record?_obj {names : List String} (values : List Json)
    (hlength : values.length = names.length) (hnames : names.Nodup) :
    record? names (obj ((names.map String.toList).zip values)) = some values := by
  have hfields : fieldsOf names (values.map some) = (names.map String.toList).zip values := by
    rw [fieldsOf, List.zip_map_left, List.zip_map_right, List.filterMap_map]
    exact congrFun List.filterMap_eq_map (names.zip values)
  have h := record?_fieldsOf (values.map some) (by simpa using hlength) hnames
  simpa [hfields, Function.comp_def] using h

/-! ## Reading back -/

/-- What is written for `a` is data, and reading it gives `a` back. -/
structure ReadsBack (write : α → Json) (read : Json → Option α) (a : α) : Prop where
  isData : (write a).IsData
  read_write : read (write a) = some a

theorem readsBack_text (t : Text) : ReadsBack str toText? t := ⟨.str t, rfl⟩

theorem readsBack_option {write : α → Json} {read : Json → Option α} {a? : Option α}
    (hnull : ∀ a, write a ≠ null) (h : ∀ a ∈ a?, ReadsBack write read a) :
    ReadsBack (ofOption write) (toOption? read) a? := by
  cases a? with
  | none => exact ⟨.null, rfl⟩
  | some a =>
    have ha := h a rfl
    refine ⟨ha.isData, ?_⟩
    show toOption? read (write a) = _
    rw [toOption?, ha.read_write]
    · rfl
    · exact hnull a

theorem readsBack_list {write : α → Json} {read : Json → Option α} {l : List α}
    (h : ∀ a ∈ l, ReadsBack write read a) : ReadsBack (ofList write) (toList? read) l := by
  refine ⟨.arr ?_, ?_⟩
  · rintro j hj
    obtain ⟨a, ha, rfl⟩ := List.mem_map.1 hj
    exact (h a ha).isData
  · show (l.map write).mapM read = some l
    induction l with
    | nil => rfl
    | cons a l ih =>
      have hl := ih fun b hb => h b (List.mem_cons_of_mem a hb)
      rw [List.map_cons, List.mapM_cons, (h a List.mem_cons_self).read_write, hl]
      rfl

theorem readsBack_optionalText (t? : Option Text) : ReadsBack (ofOption str) (toOption? toText?) t? :=
  readsBack_option (fun _ => nofun) fun t _ => readsBack_text t

/-- Every spelling of what is written for the value gives the value back. -/
theorem ReadsBack.of_spells {write : α → Json} {read : Json → Option α} {a : α} {s : Text}
    (h : ReadsBack write read a) (hs : Spells (write a) s) : (parse? s).bind read = some a := by
  rw [parse?_of_spells hs]
  exact h.read_write

end Json

open Json

/-! ## Comments -/

/-- Both numbers of the position fit into 64 bits. -/
def Position.Fits (p : Position) : Prop := p.line < Nat.pow 2 64 ∧ p.column < Nat.pow 2 64

theorem Position.readsBack {p : Position} (h : p.Fits) : ReadsBack toJson ofJson? p := by
  have hrecord : record? ["line", "column"] p.toJson = some _ :=
    record?_obj [nat p.line, nat p.column] rfl (by decide)
  refine ⟨.obj (by simp [IsData.nat]), ?_⟩
  simp [ofJson?, hrecord, toNat?, h.1, h.2]

theorem Param.readsBack (p : Param) : ReadsBack toJson ofJson? p := by
  have htype := readsBack_optionalText p.type?
  have hrecord : record? ["name", "type", "description"] p.toJson = some _ :=
    record?_obj [str p.name, ofOption str p.type?, str p.description] rfl (by decide)
  refine ⟨.obj (by simp [IsData.str, htype.isData]), ?_⟩
  simp [ofJson?, hrecord, toText?, htype.read_write]

theorem Note.readsBack (n : Note) : ReadsBack toJson ofJson? n := by
  have htype := readsBack_optionalText n.type?
  have hrecord : record? ["type", "description"] n.toJson = some _ :=
    record?_obj [ofOption str n.type?, str n.description] rfl (by decide)
  refine ⟨.obj (by simp [IsData.str, htype.isData]), ?_⟩
  simp [ofJson?, hrecord, toText?, htype.read_write]

theorem Tag.readsBack (t : Tag) : ReadsBack toJson ofJson? t := by
  have hrecord : record? ["tag", "value"] t.toJson = some _ :=
    record?_obj [str t.tag, str t.value] rfl (by decide)
  refine ⟨.obj (by simp [IsData.str]), ?_⟩
  simp [ofJson?, hrecord, toText?]

/-- The numbers of both positions fit into 64 bits. -/
def Comment.Fits (c : Comment) : Prop := (∀ p ∈ c.start, p.Fits) ∧ ∀ p ∈ c.stop, p.Fits

theorem Comment.readsBack {c : Comment} (h : c.Fits) : ReadsBack toJson ofJson? c := by
  have hposition {p? : Option Position} (hp : ∀ p ∈ p?, p.Fits) :
      ReadsBack (ofOption Position.toJson) (toOption? Position.ofJson?) p? :=
    readsBack_option (fun _ => nofun) fun p hmem => Position.readsBack (hp p hmem)
  have hstart := hposition h.1
  have hstop := hposition h.2
  have hparams := readsBack_list fun p (_ : p ∈ c.params) => p.readsBack
  have hreturns := readsBack_list fun n (_ : n ∈ c.returns) => n.readsBack
  have hthrows := readsBack_list fun n (_ : n ∈ c.throws) => n.readsBack
  have hlink := readsBack_optionalText c.link
  have htags := readsBack_list fun t (_ : t ∈ c.tags) => t.readsBack
  have hrecord : record? ["startLocation", "endLocation", "description", "params", "returns",
      "thrownErrors", "link", "tags"] c.toJson = some _ :=
    record?_obj [ofOption Position.toJson c.start, ofOption Position.toJson c.stop, str c.description,
      Json.ofList Param.toJson c.params, Json.ofList Note.toJson c.returns,
      Json.ofList Note.toJson c.throws, ofOption str c.link, Json.ofList Tag.toJson c.tags] rfl
      (by decide)
  refine ⟨.obj ?_, ?_⟩
  · simp [IsData.str, hstart.isData, hstop.isData, hparams.isData, hreturns.isData, hthrows.isData,
      hlink.isData, htags.isData]
  · simp [ofJson?, hrecord, toText?, hstart.read_write, hstop.read_write, hparams.read_write,
      hreturns.read_write, hthrows.read_write, hlink.read_write, htags.read_write]

/-! ## Constructs -/

theorem Kind.readsBack (k : Kind) : ReadsBack toJson ofJson? k := by
  refine ⟨.str _, ?_⟩
  cases k <;> decide

theorem Construct.toFields_eq (c : Construct) :
    c.toFields = fieldsOf ["type", "name"] [some c.kind.toJson, c.name?.map str] := by
  obtain ⟨kind, name?⟩ := c
  cases name? <;> rfl

theorem Construct.readsBack (c : Construct) : ReadsBack toJson ofJson? c := by
  have hkind := c.kind.readsBack
  have hname := readsBack_optionalText c.name?
  have hvalue : (c.name?.map str).getD null = ofOption str c.name? := by cases c.name? <;> rfl
  have hrecord : record? ["type", "name"] c.toJson = some [c.kind.toJson, ofOption str c.name?] := by
    rw [toJson, toFields_eq, record?_fieldsOf _ rfl (by decide), ← hvalue]
    rfl
  refine ⟨.obj ?_, ?_⟩
  · simp [toFields, IsData.str, hkind.isData]
  · simp [ofJson?, hrecord, hkind.read_write, hname.read_write]

theorem Construct.field?_name (c : Construct) : c.toJson.field? "name" = c.name?.map str := by
  obtain ⟨kind, name?⟩ := c
  cases name? <;> rfl

/-! ## The round trip -/

theorem json_roundTrip :
    (∀ c : Comment, c.Fits →
      (parse? c.toJson.compact).bind Comment.ofJson? = some c ∧
      (parse? c.toJson.pretty).bind Comment.ofJson? = some c) ∧
    ∀ k : Construct,
      ((k.toJson.field? "name").isSome ↔ k.name?.isSome) ∧
      (parse? k.toJson.compact).bind Construct.ofJson? = some k ∧
      (parse? k.toJson.pretty).bind Construct.ofJson? = some k := by
  refine ⟨fun c hc => ?_, fun k => ⟨?_, ?_⟩⟩
  · have h := Comment.readsBack hc
    exact ⟨h.of_spells (spells_compact h.isData), h.of_spells (spells_pretty h.isData)⟩
  · rw [k.field?_name, Option.isSome_map]
  · have h := k.readsBack
    exact ⟨h.of_spells (spells_compact h.isData), h.of_spells (spells_pretty h.isData)⟩

/-- A comment with every kind of field, positions at the bounds, and characters that are escaped, that
take two units of 16 bits, or that only look like the end of a string. -/
def Comment.crowded : Comment where
  start := some ⟨0, Nat.pow 2 64 - 1⟩
  stop := some ⟨Nat.pow 2 64 - 1, 0⟩
  description := "\"quoted\\\" \x01\t\r\n😀\x7f".toList
  params := [⟨"a".toList, some "\\u0041".toList, []⟩, ⟨[], none, "\x0c\x08".toList⟩]
  returns := [⟨none, "null".toList⟩, ⟨some [], "[1,2]".toList⟩]
  throws := [⟨some "E".toList, "e".toList⟩]
  link := some "https://x/?y=\"z\"".toList
  tags := [⟨"module".toList, "m\nn".toList⟩, ⟨"module".toList, []⟩]

theorem json_roundTrip_crowded :
    Comment.crowded.Fits ∧
      (parse? Comment.crowded.toJson.compact).bind Comment.ofJson? = some Comment.crowded ∧
      (parse? Comment.crowded.toJson.pretty).bind Comment.ofJson? = some Comment.crowded := by
  have hfits : Comment.crowded.Fits := by
    constructor
    · rintro p ⟨⟩
      exact ⟨by decide, by decide⟩
    · rintro p ⟨⟩
      exact ⟨by decide, by decide⟩
  exact ⟨hfits, json_roundTrip.1 _ hfits⟩

end Bookbinder
