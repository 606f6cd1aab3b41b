import Mathlib.Data.List.Nodup
import PolicyGradient.Document.Basic

/-!
The fields of a document.

`Gives` says which item a document gives for a named field, as an entry of a record or by its place
in a list, and `Readable` says when the named fields can be told apart.  `fields?` finds what is
given, and a setting that is read with a default is what its item says or the default.

`SameFields` compares two documents by the named fields alone, whatever else they hold and however
they are laid out.
-/

namespace PolicyGradient

/-- Written as an integer from zero on, in 64 bits. -/
def Numeral.IsNatural (x : Numeral) : Prop :=
  x.plain = true ∧ x.negative = false ∧ x.significand < Nat.pow 2 64

theorem Numeral.natural?_eq_some {x : Numeral} {n : Nat} :
    x.natural? = some n ↔ x.IsNatural ∧ x.significand = n := by
  simp [natural?, IsNatural]

namespace Document

variable {β : Type} {names : List String} {document : Document}

/-- The natural number that a document writes out. -/
def IsNat (document : Document) (n : Nat) : Prop :=
  ∃ x : Numeral, document = .number x ∧ x.IsNatural ∧ x.significand = n

theorem nat?_eq_some {n : Nat} : document.nat? = some n ↔ document.IsNat n := by
  cases document <;> simp [nat?, IsNat, Numeral.natural?_eq_some]

/-- The text that a document is. -/
def IsText (document : Document) (text : String) : Prop :=
  document = .text text

theorem text?_eq_some {text : String} : document.text? = some text ↔ document.IsText text := by
  cases document <;> simp [text?, IsText]

/-- Null is the absent value, and everything else says its value. -/
inductive OrNull (Says : Document → β → Prop) : Document → Option β → Prop
  | null : OrNull Says .null none
  | held {document : Document} {value : β} : document ≠ .null → Says document value →
      OrNull Says document (some value)

theorem optional?_eq_some {read : Document → Option β} {Says : Document → β → Prop}
    (hread : ∀ {value}, read document = some value ↔ Says document value) {value : Option β} :
    document.optional? read = some value ↔ OrNull Says document value := by
  by_cases hnull : document = .null
  · subst hnull
    constructor
    · rintro ⟨⟩
      exact .null
    · rintro (_ | ⟨hne, _⟩)
      · rfl
      · exact absurd rfl hne
  · have hoptional : document.optional? read = (read document).map some := by
      cases document <;> first | rfl | exact absurd rfl hnull
    rw [hoptional, Option.map_eq_some_iff]
    simp only [hread]
    constructor
    · rintro ⟨x, hx, rfl⟩
      exact .held hnull hx
    · rintro (_ | ⟨_, hx⟩)
      · exact absurd rfl hnull
      · exact ⟨_, hx, rfl⟩

/-- The item given for one of the named fields. -/
inductive Gives (names : List String) : Document → String → Document → Prop
  | entry {entries : List (String × Document)} {name : String} {item : Document} :
      name ∈ names → (name, item) ∈ entries → Gives names (.record entries) name item
  | place {items : List Document} {i : Nat} {name : String} {item : Document} :
      names[i]? = some name → items[i]? = some item → Gives names (.list items) name item

/-- No named field is given twice, and a list has no items beyond the named fields. -/
def Readable (names : List String) : Document → Prop
  | .record entries => ∀ name ∈ names, occurrences name entries ≤ 1
  | .list items => items.length ≤ names.length
  | _ => False

/-- What is found for one of the named fields. -/
def field? (names : List String) (name : String) : Document → Option Document
  | .record entries => lookup? name entries
  | .list items => items[names.idxOf name]?
  | _ => none

@[simp] theorem occurrences_cons (name key : String) (item : Document)
    (entries : List (String × Document)) :
    occurrences name ((key, item) :: entries) =
      occurrences name entries + if key = name then 1 else 0 := by
  by_cases h : key = name <;> simp [occurrences, h]

@[simp] theorem occurrences_append (name : String) (before after : List (String × Document)) :
    occurrences name (before ++ after) = occurrences name before + occurrences name after := by
  simp [occurrences]

@[simp] theorem lookup?_cons (name key : String) (item : Document)
    (entries : List (String × Document)) :
    lookup? name ((key, item) :: entries) =
      if key = name then some item else lookup? name entries := by
  by_cases h : key = name <;> simp [lookup?, h]

theorem occurrences_eq_zero {name : String} {entries : List (String × Document)} :
    occurrences name entries = 0 ↔ ∀ item, (name, item) ∉ entries := by
  simp only [occurrences, List.length_eq_zero_iff, List.filter_eq_nil_iff, beq_iff_eq]
  constructor
  · intro h item hmem
    exact h (name, item) hmem rfl
  · rintro h ⟨key, item⟩ hmem rfl
    exact h item hmem

/-- A key that occurs only once leads to its entry. -/
theorem lookup?_eq_some {name : String} {entries : List (String × Document)} {item : Document}
    (h : occurrences name entries ≤ 1) :
    lookup? name entries = some item ↔ (name, item) ∈ entries := by
  induction entries with
  | nil => simp [lookup?]
  | cons entry entries ih =>
      obtain ⟨key, found⟩ := entry
      rw [occurrences_cons] at h
      by_cases hkey : key = name
      · have hrest : occurrences name entries = 0 := by
          rw [if_pos hkey] at h
          omega
        have hnot := occurrences_eq_zero.mp hrest item
        simp [hkey, hnot, eq_comm]
      · rw [if_neg hkey] at h
        simp [hkey, ih h, Ne.symm hkey]

/-- Reading succeeds on readable documents and finds every named field. -/
theorem fields?_eq_some (hnames : names.Nodup) {values : List (Option Document)} :
    fields? names document = some values ↔
      Readable names document ∧ values = names.map fun name => field? names name document := by
  cases document with
  | record entries => simp [fields?, Readable, field?, @eq_comm _ values]
  | list items =>
      have hplaces : (List.range names.length).map (fun i => items[i]?) =
          names.map fun name => items[names.idxOf name]? := by
        apply List.ext_getElem
        · simp
        · intro i hi hi'
          simp [hnames.idxOf_getElem]
      simp [fields?, Readable, field?, hplaces, @eq_comm _ values]
  | _ => simp [fields?, Readable]

/-- What is found for a field is what the document gives. -/
theorem field?_eq_some (hnames : names.Nodup) (hreadable : Readable names document) {name : String}
    (hname : name ∈ names) {item : Document} :
    field? names name document = some item ↔ Gives names document name item := by
  cases document with
  | record entries =>
      rw [field?, lookup?_eq_some (hreadable name hname)]
      exact ⟨fun h => .entry hname h, fun h => by cases h; assumption⟩
  | list items =>
      constructor
      · intro h
        refine .place ?_ h
        simp [List.getElem?_eq_getElem (List.idxOf_lt_length_of_mem hname)]
      · rintro (_ | ⟨hplace, hitem⟩)
        obtain ⟨hi, rfl⟩ := List.getElem?_eq_some_iff.mp hplace
        rw [field?, hnames.idxOf_getElem]
        exact hitem
  | _ => cases hreadable

/-- At most one item is given for a field. -/
theorem Gives.unique (hnames : names.Nodup) (hreadable : Readable names document) {name : String}
    (hname : name ∈ names) {item item' : Document} (h : Gives names document name item)
    (h' : Gives names document name item') : item = item' := by
  rw [← field?_eq_some hnames hreadable hname] at h h'
  exact Option.some.inj (h.symm.trans h')

theorem Gives.mem {name : String} {item : Document} (h : Gives names document name item) :
    name ∈ names := by
  cases h with
  | entry hname _ => exact hname
  | place hplace _ => exact List.mem_of_getElem? hplace

/-- The item is read as that value. -/
def Reads (read : Document → Option β) (item : Document) (value : β) : Prop :=
  read item = some value

/-- A setting is what its item says, and its default where no item is given. -/
def Sets (names : List String) (document : Document) (name : String) (default : β)
    (Says : Document → β → Prop) (value : β) : Prop :=
  (∀ item, Gives names document name item → Says item value) ∧
    ((∀ item, ¬ Gives names document name item) → value = default)

theorem withDefault?_eq_some (hnames : names.Nodup) (hreadable : Readable names document)
    {name : String} (hname : name ∈ names) {default value : β} {read : Document → Option β}
    {Says : Document → β → Prop} (hread : ∀ {item}, read item = some value ↔ Says item value) :
    withDefault? default read (field? names name document) = some value ↔
      Sets names document name default Says value := by
  have hgives {item : Document} :
      field? names name document = some item ↔ Gives names document name item :=
    field?_eq_some hnames hreadable hname
  cases hfield : field? names name document with
  | none =>
      have habsent : ∀ item, ¬ Gives names document name item := by
        intro item h
        simp [hgives.mpr h] at hfield
      simp [withDefault?, Sets, habsent, eq_comm]
  | some found =>
      have hfound := hgives.mp hfield
      have honly : ∀ item, Gives names document name item → item = found := by
        intro item h
        simpa [hfield, eq_comm] using hgives.mpr h
      rw [withDefault?, hread]
      constructor
      · intro h
        refine ⟨fun item hitem => ?_, fun habsent => absurd hfound (habsent found)⟩
        rwa [honly item hitem]
      · exact fun h => h.1 found hfound

/-- A field that has to be there, with what its item says. -/
def Holds (names : List String) (document : Document) (name : String)
    (Says : Document → β → Prop) (value : β) : Prop :=
  ∃ item, Gives names document name item ∧ Says item value

theorem required?_eq_some (hnames : names.Nodup) (hreadable : Readable names document)
    {name : String} (hname : name ∈ names) {value : β} {read : Document → Option β}
    {Says : Document → β → Prop} (hread : ∀ {item}, read item = some value ↔ Says item value) :
    required? read (field? names name document) = some value ↔
      Holds names document name Says value := by
  simp [required?, Holds, Option.bind_eq_some_iff, field?_eq_some hnames hreadable hname, hread]

/-- The named fields of two documents can be read alike and hold related items. -/
structure SameFields (names : List String) (Related : String → Document → Document → Prop)
    (document document' : Document) : Prop where
  readable : Readable names document ↔ Readable names document'
  forward {name : String} {item : Document} : Gives names document name item →
    ∃ item', Gives names document' name item' ∧ Related name item item'
  backward {name : String} {item' : Document} : Gives names document' name item' →
    ∃ item, Gives names document name item ∧ Related name item item'

variable {document' : Document} {entries entries' before after : List (String × Document)}
variable {Related : String → Document → Document → Prop}

namespace SameFields

theorem refl (hrefl : ∀ name item, Related name item item) :
    SameFields names Related document document :=
  ⟨Iff.rfl, fun {name item} h => ⟨item, h, hrefl name item⟩,
    fun {name item} h => ⟨item, h, hrefl name item⟩⟩

theorem symm (h : SameFields names Related document document')
    (hsymm : ∀ {name item item'}, Related name item item' → Related name item' item) :
    SameFields names Related document' document where
  readable := h.readable.symm
  forward hgives := by
    obtain ⟨item, hitem, hrelated⟩ := h.backward hgives
    exact ⟨item, hitem, hsymm hrelated⟩
  backward hgives := by
    obtain ⟨item, hitem, hrelated⟩ := h.forward hgives
    exact ⟨item, hitem, hsymm hrelated⟩

variable {name : String} {default value : β} {Says : Document → β → Prop}

/-- A setting is the same when related items say the same. -/
theorem sets (h : SameFields names Related document document')
    (hmeans : ∀ {item item'}, Related name item item' → (Says item value ↔ Says item' value))
    (hsets : Sets names document name default Says value) :
    Sets names document' name default Says value := by
  constructor
  · intro item' hitem'
    obtain ⟨item, hitem, hrelated⟩ := h.backward hitem'
    exact (hmeans hrelated).mp (hsets.1 item hitem)
  · intro habsent
    apply hsets.2
    intro item hitem
    obtain ⟨item', hitem', _⟩ := h.forward hitem
    exact habsent item' hitem'

theorem holds (h : SameFields names Related document document')
    (hmeans : ∀ {item item'}, Related name item item' → (Says item value ↔ Says item' value))
    (hholds : Holds names document name Says value) :
    Holds names document' name Says value := by
  obtain ⟨item, hitem, hvalue⟩ := hholds
  obtain ⟨item', hitem', hrelated⟩ := h.forward hitem
  exact ⟨item', hitem', (hmeans hrelated).mp hvalue⟩

/-- Entries may change places. -/
theorem of_perm (hrefl : ∀ name item, Related name item item) (hperm : entries.Perm entries') :
    SameFields names Related (.record entries) (.record entries') where
  readable := by simp [Readable, occurrences, (hperm.filter _).length_eq]
  forward := by
    rintro name item (⟨hname, hitem⟩ | _)
    exact ⟨item, .entry hname (hperm.mem_iff.mp hitem), hrefl name item⟩
  backward := by
    rintro name item (⟨hname, hitem⟩ | _)
    exact ⟨item, .entry hname (hperm.mem_iff.mpr hitem), hrefl name item⟩

/-- An entry that is not one of the named fields makes no difference. -/
theorem of_unknown (hrefl : ∀ name item, Related name item item) {key : String} {item : Document}
    (hkey : key ∉ names) :
    SameFields names Related (.record entries) (.record ((key, item) :: entries)) where
  readable := by
    apply forall₂_congr
    intro name hname
    have hne : key ≠ name := fun h => hkey (h ▸ hname)
    simp [hne]
  forward := by
    rintro name item (⟨hname, hitem⟩ | _)
    exact ⟨item, .entry hname (List.mem_cons_of_mem _ hitem), hrefl name item⟩
  backward := by
    rintro name item (⟨hname, hitem⟩ | _)
    rcases List.mem_cons.mp hitem with heq | hitem
    · cases heq
      exact absurd hname hkey
    · exact ⟨item, .entry hname hitem, hrefl name item⟩

/-- Where one entry is replaced, every entry has a related one. -/
theorem exists_entry {key : String} {item item' : Document}
    (hrefl : ∀ name item, Related name item item) (hitem : Related key item item') {name : String}
    {found : Document} (hfound : (name, found) ∈ before ++ (key, item) :: after) :
    ∃ found', (name, found') ∈ before ++ (key, item') :: after ∧ Related name found found' := by
  simp only [List.mem_append, List.mem_cons, Prod.mk.injEq] at hfound ⊢
  obtain hfound | ⟨rfl, rfl⟩ | hfound := hfound
  · exact ⟨found, .inl hfound, hrefl name found⟩
  · exact ⟨item', .inr (.inl ⟨rfl, rfl⟩), hitem⟩
  · exact ⟨found, .inr (.inr hfound), hrefl name found⟩

/-- An entry may hold a related item. -/
theorem of_entry (hrefl : ∀ name item, Related name item item) {key : String}
    {item item' : Document} (hitem : Related key item item') :
    SameFields names Related (.record (before ++ (key, item) :: after))
      (.record (before ++ (key, item') :: after)) where
  readable := by simp [Readable]
  forward := by
    rintro name found (⟨hname, hfound⟩ | _)
    obtain ⟨found', hfound', hrelated⟩ := exists_entry hrefl hitem hfound
    exact ⟨found', .entry hname hfound', hrelated⟩
  backward := by
    rintro name found (⟨hname, hfound⟩ | _)
    -- The same with the two items in each other's place.
    obtain ⟨found', hfound', hrelated⟩ :=
      @exists_entry _ _ (fun name item item' => Related name item' item) _ _ _ hrefl hitem _ _
        hfound
    exact ⟨found', .entry hname hfound', hrelated⟩

/-- Where one place of a list is replaced, every place has a related item. -/
theorem exists_place {before after : List Document} {item item' : Document} {name : String}
    {i : Nat} (hrefl : ∀ name item, Related name item item)
    (hitem : i = before.length → Related name item item') {found : Document}
    (hfound : (before ++ item :: after)[i]? = some found) :
    ∃ found', (before ++ item' :: after)[i]? = some found' ∧ Related name found found' := by
  rcases Nat.lt_trichotomy i before.length with hlt | rfl | hgt
  · rw [List.getElem?_append_left hlt] at hfound ⊢
    exact ⟨found, hfound, hrefl name found⟩
  · simp only [List.getElem?_append_right (Nat.le_refl _),
      Nat.sub_self, List.getElem?_cons_zero, Option.some.injEq] at hfound ⊢
    exact ⟨item', rfl, hfound ▸ hitem rfl⟩
  · obtain ⟨k, rfl⟩ := Nat.exists_eq_add_of_lt hgt
    have hshift : before.length + k + 1 - before.length = k + 1 := by omega
    rw [List.getElem?_append_right (by omega), hshift, List.getElem?_cons_succ] at hfound ⊢
    exact ⟨found, hfound, hrefl name found⟩

/-- A place of a list may hold a related item. -/
theorem of_place (hrefl : ∀ name item, Related name item item) {before after : List Document}
    {item item' : Document}
    (hitem : ∀ name, names[before.length]? = some name → Related name item item') :
    SameFields names Related (.list (before ++ item :: after))
      (.list (before ++ item' :: after)) where
  readable := by simp [Readable]
  forward := by
    rintro name found (_ | ⟨hname, hfound⟩)
    obtain ⟨found', hfound', hrelated⟩ :=
      exists_place hrefl (fun hi => hitem name (hi ▸ hname)) hfound
    exact ⟨found', .place hname hfound', hrelated⟩
  backward := by
    rintro name found (_ | ⟨hname, hfound⟩)
    obtain ⟨found', hfound', hrelated⟩ :=
      @exists_place (fun name item item' => Related name item' item) _ _ _ _ _ _ hrefl
        (fun hi => hitem name (hi ▸ hname)) _ hfound
    exact ⟨found', .place hname hfound', hrelated⟩

end SameFields

end Document

end PolicyGradient
