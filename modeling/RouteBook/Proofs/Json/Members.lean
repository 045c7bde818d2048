import RouteBook.Proofs.Json.Records
import RouteBook.Proofs.Json.Skipping

/-! The members of a record's text. Any text that is read as a record has them in one way only: as the members of an object,
in their order and unknown keys among them, or as the items of an array, which stand for the fields in the order of these.
The record is made from the values of its own fields: nothing else in the text decides anything. -/

namespace RouteBook.Json

variable {α : Type} {first : Bool} {text rest left : List Char} {members : List (String × List Char)}
  {means : List Char → α → Prop}

/-! ### What values say -/

/-- One of some names, as a string or as the only key of an object, over `null`. -/
inductive Chooses (options : List (String × α)) : List Char → α → Prop
  | name {text : List Char} {name : String} {result : α} (h : IsText text name) (hlookup : options.lookup name = some result) :
    Chooses options text result
  | key {before key after start close : List Char} {name : String} {result : α} (hbefore : Blank before) (h : IsText key name)
    (hafter : Blank after) (hstart : Blank start) (hclose : Blank close) (hlookup : options.lookup name = some result) :
    Chooses options ('{' :: (before ++ (key ++ (after ++ ':' :: (start ++ ("null".toList ++ (close ++ ['}']))))))) result

/-- A value or `null`. -/
inductive OrNull (means : List Char → α → Prop) : List Char → Option α → Prop
  | null : OrNull means "null".toList none
  | value {text : List Char} {result : α} (h : means text result) : OrNull means text (some result)

/-- Values of the grammar that say one thing each, which `null` does not. -/
structure Meaning (means : List Char → α → Prop) : Prop where
  form : ∀ ⦃text result⦄, means text result → Form .value text
  unique : Relator.RightUnique means
  not_null : ∀ ⦃result⦄, ¬means "null".toList result

theorem meaning_isText : Meaning IsText where
  form := by
    rintro text s ⟨body, rfl, hbody⟩
    exact .string hbody.quoted
  unique := isText_rightUnique
  not_null := by
    rintro s ⟨body, heq, -⟩
    cases heq

theorem meaning_chooses (options : List (String × α)) : Meaning (Chooses options) where
  form := by
    intro text result h
    cases h with
    | name h _ => exact meaning_isText.form h
    | key hbefore h hafter hstart hclose _ =>
        obtain ⟨body, rfl, hbody⟩ := h
        exact .object (.member (.first hbefore) hbody.quoted hafter hstart .null (.endMembers hclose))
  unique := by
    intro text result result' h h'
    cases h with
    | name h hlookup =>
        cases h' with
        | name h' hlookup' =>
            obtain rfl := isText_rightUnique h h'
            exact Option.some.inj (hlookup.symm.trans hlookup')
        | key =>
            obtain ⟨body, heq, -⟩ := h
            cases heq
    | @key before key after start close name _ hbefore h _ _ _ hlookup =>
        generalize htext : '{' :: (before ++ (key ++ (after ++ ':' :: (start ++ ("null".toList ++ (close ++ ['}'])))))) = text at h'
        cases h' with
        | name h' _ =>
            obtain ⟨body, rfl, -⟩ := h'
            cases htext
        | key hbefore' h' _ _ _ hlookup' =>
            obtain ⟨body, rfl, hbody⟩ := h
            obtain ⟨body', rfl, hbody'⟩ := h'
            have hbehind := (gap_cancel hbefore hbefore' (by decide) (by decide) (List.cons_eq_cons.mp htext).2).2
            obtain ⟨rfl, hname, -⟩ := hbody.unique hbody' hbehind
            obtain rfl := String.toList_injective hname
            exact Option.some.inj (hlookup.symm.trans hlookup')
  not_null := by
    intro result h
    generalize htext : "null".toList = text at h
    cases h with
    | name h _ =>
        obtain ⟨body, rfl, -⟩ := h
        cases htext
    | key => cases htext

theorem Meaning.map {β : Type} (h : Meaning means) (make : α → β) :
    Meaning fun text made => ∃ result, means text result ∧ made = make result where
  form := fun _ _ ⟨_, hmeans, _⟩ => h.form hmeans
  unique := by
    rintro text _ _ ⟨result, hmeans, rfl⟩ ⟨result', hmeans', rfl⟩
    rw [h.unique hmeans hmeans']
  not_null := fun _ ⟨_, hmeans, _⟩ => h.not_null hmeans

theorem OrNull.form (hmeaning : Meaning means) {member : Option α} (h : OrNull means text member) : Form .value text := by
  cases h with
  | null => exact .null
  | value h => exact hmeaning.form h

theorem OrNull.unique (hmeaning : Meaning means) {member member' : Option α} (h : OrNull means text member)
    (h' : OrNull means text member') : member = member' := by
  cases h with
  | null =>
      generalize hnull : "null".toList = text at h'
      cases h' with
      | null => rfl
      | value h' => exact (hmeaning.not_null (hnull ▸ h')).elim
  | value h =>
      cases h' with
      | null => exact (hmeaning.not_null h).elim
      | value h' => rw [hmeaning.unique h h']

theorem OrNull.map {β : Type} (make : α → β) {member : Option α} (h : OrNull means text member) :
    OrNull (fun text made => ∃ result, means text result ∧ made = make result) text (member.map make) := by
  cases h with
  | null => exact .null
  | value h => exact .value ⟨_, h, rfl⟩

/-! ### Members of a text -/

/-- Members as they are written, and with what their keys say. -/
def Named : List (List Char × List Char) → List (String × List Char) → Prop :=
  List.Forall₂ fun written member => Literal written.1 member.1.toList ∧ written.2 = member.2

/-- A text that is a record with fields of the given names, with its members: an object, or an array with an item for each
field. -/
inductive IsRecord (names : List String) : List Char → List (String × List Char) → Prop
  | object {before inside after : List Char} {written : List (List Char × List Char)} {members : List (String × List Char)}
    (hbefore : Blank before) (h : Form (.members true written) inside) (hnames : Named written members)
    (hafter : Blank after) : IsRecord names (before ++ '{' :: (inside ++ after)) members
  | array {before inside after : List Char} {values : List (List Char)} (hbefore : Blank before)
    (h : Form (.items true values) inside) (hlength : values.length = names.length) (hafter : Blank after) :
    IsRecord names (before ++ '[' :: (inside ++ after)) (names.zip values)

theorem named_rightUnique : Relator.RightUnique Named :=
  Relator.RightUnique.forall₂ fun written _ _ h h' =>
    Prod.ext (isText_rightUnique ⟨written.1, rfl, h.1⟩ ⟨written.1, rfl, h'.1⟩) (h.2.symm.trans h'.2)

/-- A text is a record with the same members only. -/
theorem isRecord_rightUnique (names : List String) : Relator.RightUnique (IsRecord names) := by
  intro text members members' h h'
  cases h with
  | @object before inside after written _ hbefore h hnames =>
      generalize htext : before ++ '{' :: (inside ++ after) = text at h'
      cases h' with
      | object hbefore' h' hnames' =>
          have hinside := (gap_cancel hbefore hbefore' (by decide) (by decide) htext).2
          obtain rfl := (h.members_unique h' hinside).1
          exact named_rightUnique hnames hnames'
      | array hbefore' => exact absurd (gap_cancel hbefore hbefore' (by decide) (by decide) htext).1 (by decide)
  | @array before inside after values hbefore h =>
      generalize htext : before ++ '[' :: (inside ++ after) = text at h'
      cases h' with
      | object hbefore' => exact absurd (gap_cancel hbefore hbefore' (by decide) (by decide) htext).1 (by decide)
      | array hbefore' h' =>
          have hinside := (gap_cancel hbefore hbefore' (by decide) (by decide) htext).2
          rw [(h.items_unique h' hinside).1]

/-- What the members of a text say of a key: nothing if it is not among them, else what its value says, which may be `null`. -/
def Gives (means : List Char → α → Prop) (members : List (String × List Char)) (key : String) (member : Option α) : Prop :=
  (key ∉ members.map Prod.fst ∧ member = none) ∨ ∃ text, (key, text) ∈ members ∧ OrNull means text member

/-- The value of a key that stands among the members once at most. -/
theorem value_eq_of_count_le {key : String} {value value' : List Char} (hcount : (members.map Prod.fst).count key ≤ 1)
    (h : (key, value) ∈ members) (h' : (key, value') ∈ members) : value = value' := by
  induction members with
  | nil => cases h
  | cons member members ih =>
      obtain ⟨other, content⟩ := member
      rw [List.map_cons] at hcount
      by_cases hother : other = key
      · rw [hother, List.count_cons_self, Nat.succ_le_succ_iff, Nat.le_zero, List.count_eq_zero] at hcount
        have hhead : ∀ {value}, (key, value) ∈ (other, content) :: members → value = content := by
          intro value hmem
          rcases List.mem_cons.mp hmem with heq | hmem
          · exact (Prod.mk.inj heq).2
          · exact absurd (List.mem_map_of_mem hmem) hcount
        rw [hhead h, hhead h']
      · rw [List.count_cons_of_ne hother] at hcount
        have htail : ∀ {value}, (key, value) ∈ (other, content) :: members → (key, value) ∈ members := by
          intro value hmem
          rcases List.mem_cons.mp hmem with heq | hmem
          · exact absurd (Prod.mk.inj heq).1.symm hother
          · exact hmem
        exact ih hcount (htail h) (htail h')

/-- What members say of a key is one thing if the key stands among them once at most. -/
theorem Gives.unique (hmeaning : Meaning means) {key : String} {member member' : Option α}
    (hcount : (members.map Prod.fst).count key ≤ 1) (h : Gives means members key member)
    (h' : Gives means members key member') : member = member' := by
  obtain ⟨habsent, rfl⟩ | ⟨text, hmem, hmember⟩ := h
  · obtain ⟨-, rfl⟩ | ⟨text, hmem, -⟩ := h'
    · rfl
    · exact absurd (List.mem_map_of_mem hmem) habsent
  · obtain ⟨habsent, -⟩ | ⟨text', hmem', hmember'⟩ := h'
    · exact absurd (List.mem_map_of_mem hmem) habsent
    · obtain rfl := value_eq_of_count_le hcount hmem hmem'
      exact hmember.unique hmeaning hmember'

namespace Reader

variable {ρ : Type} {fields behind : List (Field ρ)} {field : Field ρ} {record stored result : ρ} {fuel index : Nat}
  {seen : List String} {key title expected : String} {value : List Char} {get : ρ → Option α} {reader : Reader α}

/-! ### Typed readings -/

/-- A reading takes values for what they say, with white space before them. -/
def Reads (reader : Reader α) (means : List Char → α → Prop) : Prop :=
  ∀ ⦃text rest result⦄, reader text = .ok (result, rest) →
    ∃ gap front, Blank gap ∧ means front result ∧ text = gap ++ (front ++ rest)

theorem reads_string (expected : String) : Reads (string expected) IsText := by
  intro text rest s h
  unfold string at h
  split at h
  · next hstart =>
    obtain ⟨gap, hgap, rfl⟩ := exists_gap hstart
    obtain ⟨body, hbody, rfl⟩ := readString_eq_ok_iff.mp h
    exact ⟨gap, '"' :: body, hgap, ⟨body, rfl, hbody⟩, rfl⟩
  · cases h

theorem exists_null_of_unit {read : Unit} (h : unit text = .ok (read, rest)) :
    ∃ gap, Blank gap ∧ text = gap ++ ("null".toList ++ rest) := by
  unfold unit at h
  split at h
  · next hstart =>
    obtain ⟨gap, hgap, rfl⟩ := exists_gap hstart
    exact ⟨gap, hgap, by rw [readWord_eq_ok_iff.mp h]; rfl⟩
  · cases h

theorem reads_choice (options : List (String × α)) : Reads (choice options) (Chooses options) := by
  intro text rest result h
  unfold choice at h
  extract_lets named at h
  have hnamed : ∀ {expected start value behind}, named expected start = .ok (value, behind) →
      ∃ gap front name, Blank gap ∧ IsText front name ∧ options.lookup name = some value ∧ start = gap ++ (front ++ behind) := by
    intro expected start value behind hstart
    obtain ⟨⟨name, left⟩, hread, hstart⟩ := bind_eq_ok_iff.mp hstart
    obtain ⟨gap, front, hgap, hfront, hsplit⟩ := reads_string expected hread
    dsimp only at hstart
    split at hstart
    · next hlookup =>
      cases hstart
      exact ⟨gap, front, name, hgap, hfront, hlookup, hsplit⟩
    · cases hstart
  split at h
  · cases h
  · next start hstart =>
    obtain ⟨gap, hgap, rfl⟩ := exists_gap hstart
    obtain ⟨gap', front, name, hgap', hfront, hlookup, hsplit⟩ := hnamed h
    exact ⟨gap ++ gap', front, hgap.append hgap', .name hfront hlookup, by rw [hsplit, List.append_assoc]⟩
  · next start hopen =>
    obtain ⟨⟨value, behind⟩, hkey, hbehind⟩ := bind_eq_ok_iff.mp h
    dsimp only at hbehind
    split at hbehind
    · cases hbehind
    · next hcolon =>
      obtain ⟨⟨read, left⟩, hunit, hleft⟩ := bind_eq_ok_iff.mp hbehind
      dsimp only at hleft
      split at hleft
      · next hend =>
        cases hleft
        obtain ⟨gap, hgap, rfl⟩ := exists_gap hopen
        obtain ⟨before, key, name, hbefore, hname, hlookup, rfl⟩ := hnamed hkey
        obtain ⟨after, hafter, rfl⟩ := exists_gap hcolon
        obtain ⟨start, hstart, rfl⟩ := exists_null_of_unit hunit
        obtain ⟨close, hclose, rfl⟩ := exists_gap hend
        exact ⟨gap, _, hgap, .key hbefore hname hafter hstart hclose hlookup, by simp⟩
      · cases hleft
      · cases hleft
    · cases hbehind
  · cases h

/-- Where `null` is allowed a value is taken too. -/
theorem exists_orNull (hreads : Reads reader means) {member : Option α} (h : optional reader text = .ok (member, rest)) :
    ∃ gap front, Blank gap ∧ OrNull means front member ∧ text = gap ++ (front ++ rest) := by
  unfold optional at h
  split at h
  · next hstart =>
    obtain ⟨⟨read, left⟩, hword, heq⟩ := map_eq_ok_iff.mp h
    cases heq
    obtain ⟨gap, hgap, rfl⟩ := exists_gap hstart
    exact ⟨gap, _, hgap, .null, by rw [readWord_eq_ok_iff.mp hword]; rfl⟩
  · obtain ⟨⟨content, left⟩, hread, heq⟩ := map_eq_ok_iff.mp h
    cases heq
    obtain ⟨gap', front, hgap', hfront, hsplit⟩ := hreads hread
    obtain ⟨gap, hgap, rfl⟩ := exists_gap hsplit
    exact ⟨gap ++ gap', front, hgap.append hgap', .value hfront, by rw [List.append_assoc]⟩

/-! ### What a record is made of -/

/-- A field reads a value and stores what it says in a record. -/
def Field.Stores (field : Field ρ) (value : List Char) (record stored : ρ) : Prop :=
  Form .value value ∧ ∃ gap rest, Blank gap ∧ field.read record (gap ++ (value ++ rest)) = .ok (stored, rest)

/-- The members of a text, one after another, make one record of another: those of unknown keys leave it as it is, and each
field stores its value once. -/
inductive Builds (fields : List (Field ρ)) : ρ → List (String × List Char) → ρ → Prop
  | nil (record : ρ) : Builds fields record [] record
  | passed {record result : ρ} {key : String} {value : List Char} {members : List (String × List Char)}
    (hkey : ∀ field ∈ fields, field.name ≠ key) (hmore : Builds fields record members result) :
    Builds fields record ((key, value) :: members) result
  | stored {field : Field ρ} {record stored result : ρ} {value : List Char} {members : List (String × List Char)}
    (hfield : field ∈ fields) (hstores : field.Stores value record stored) (honce : field.name ∉ members.map Prod.fst)
    (hmore : Builds fields stored members result) : Builds fields record ((field.name, value) :: members) result

/-- A field takes values. -/
def Field.Takes (field : Field ρ) : Prop :=
  ∀ ⦃record text stored rest⦄, field.read record text = .ok (stored, rest) →
    ∃ gap value, Blank gap ∧ Form .value value ∧ text = gap ++ (value ++ rest)

/-- A field takes a value and puts what it says into the record; `null` is allowed too. -/
def Field.Puts (field : Field ρ) (means : List Char → α → Prop) (put : ρ → Option α → ρ) : Prop :=
  ∀ ⦃record text stored rest⦄, field.read record text = .ok (stored, rest) →
    ∃ gap value member, Blank gap ∧ OrNull means value member ∧ text = gap ++ (value ++ rest) ∧ stored = put record member

theorem Field.Puts.takes {put : ρ → Option α → ρ} (hmeaning : Meaning means) (h : field.Puts means put) : field.Takes := by
  intro record text stored rest hread
  obtain ⟨gap, value, member, hgap, hmember, htext, -⟩ := h hread
  exact ⟨gap, value, hgap, hmember.form hmeaning, htext⟩

theorem Field.Puts.stores {put : ρ → Option α → ρ} (hmeaning : Meaning means) (h : field.Puts means put)
    (hstores : field.Stores value record stored) : ∃ member, OrNull means value member ∧ stored = put record member := by
  obtain ⟨hvalue, gap, rest, hgap, hread⟩ := hstores
  obtain ⟨gap', value', member, hgap', hmember, htext, hstored⟩ := h hread
  have hopens := (hmember.form hmeaning).opens
  have hsame := Lead.cancel (.first hgap) (.first hgap') (hvalue.opens.append rest) (hopens.append rest) htext
  obtain rfl := List.append_cancel_right hsame
  exact ⟨member, hmember, hstored⟩

theorem puts_of_optional {reader : Reader α} {put : ρ → Option α → ρ} (hreads : Reads reader means)
    (hread : ∀ record text, field.read record text =
      (optional reader text).map fun (member, rest) => (put record member, rest)) : field.Puts means put := by
  intro record text stored rest h
  rw [hread] at h
  obtain ⟨⟨member, left⟩, hoptional, heq⟩ := map_eq_ok_iff.mp h
  cases heq
  obtain ⟨gap, value, hgap, hmember, htext⟩ := exists_orNull hreads hoptional
  exact ⟨gap, value, member, hgap, hmember, htext, rfl⟩

theorem Field.Puts.map {β : Type} {make : α → β} {put : ρ → Option β → ρ}
    (h : field.Puts means fun record member => put record (member.map make)) :
    field.Puts (fun text made => ∃ result, means text result ∧ made = make result) put := by
  intro record text stored rest hread
  obtain ⟨gap, value, member, hgap, hmember, htext, hstored⟩ := h hread
  exact ⟨gap, value, member.map make, hgap, hmember.map make, htext, hstored⟩

theorem exists_lead {start gap : List Char} (h : Begins first text (gap ++ start)) (hgap : Blank gap) :
    ∃ lead, Lead first lead ∧ text = lead ++ start := by
  unfold Begins at h
  split_ifs at h with hfirst
  · obtain ⟨gap', hgap', rfl⟩ := exists_gap h
    subst hfirst
    exact ⟨_, .first (hgap'.append hgap), by rw [List.append_assoc]⟩
  · obtain ⟨behind, hcomma, hbehind⟩ := h
    obtain ⟨gap', hgap', rfl⟩ := exists_gap hcomma
    obtain ⟨gap'', hgap'', rfl⟩ := exists_gap hbehind
    obtain rfl := Bool.eq_false_iff.mpr hfirst
    exact ⟨_, .later hgap' (hgap''.append hgap), by simp⟩

theorem readObject_builds (htakes : ∀ field ∈ fields, field.Takes)
    (h : readObject fields fuel first seen record text = .ok (result, left)) :
    ∃ written members front, Form (.members first written) front ∧ text = front ++ left ∧ Named written members ∧
      Builds fields record members result ∧ ∀ field ∈ fields, field.name ∈ seen → field.name ∉ members.map Prod.fst := by
  induction fuel generalizing first seen record text with
  | zero => cases h
  | succ fuel ih =>
      obtain ⟨hclose, rfl⟩ | ⟨start, key, behind, content, seen', stored, rest, hbegins, hkey, hcolon, hstep, hrest⟩ :=
        readObject_cases h
      · obtain ⟨gap, hgap, rfl⟩ := exists_gap hclose
        exact ⟨[], [], gap ++ ['}'], .endMembers hgap, by simp, .nil, .nil _, by simp⟩
      · obtain ⟨written, members, more, hmore, rfl, hnames, hbuilds, hseen'⟩ := ih hrest
        obtain ⟨lead, hlead, rfl⟩ :=
          exists_lead (show Begins first text ([] ++ '"' :: start) from hbegins) fun _ hc => nomatch hc
        obtain ⟨name, hname, rfl⟩ := readString_eq_ok_iff.mp hkey
        obtain ⟨gap, hgap, rfl⟩ := exists_gap hcolon
        have hmember : ∀ {gap' value}, Blank gap' → Form .value value → content = gap' ++ (value ++ (more ++ left)) →
            ∃ front, Form (.members first ((name, value) :: written)) front ∧
              lead ++ '"' :: (name ++ (gap ++ ':' :: content)) = front ++ left := by
          rintro gap' value hgap' hvalue rfl
          exact ⟨_, .member hlead hname.quoted hgap hgap' hvalue hmore, by simp⟩
        cases hstep with
        | passed hnone hskip =>
            obtain ⟨gap', value, hgap', hvalue, hcontent⟩ := Skip.exists_form hskip
            obtain ⟨front, hfront, htext⟩ := hmember hgap' hvalue hcontent
            have hunknown : ∀ field ∈ fields, field.name ≠ key := by simpa using hnone
            exact ⟨_, (key, value) :: members, front, hfront, htext, .cons ⟨hname, rfl⟩ hnames, .passed hunknown hbuilds,
              fun field hfield hmem =>
                List.not_mem_cons_of_ne_of_not_mem (hunknown field hfield) (hseen' field hfield hmem)⟩
        | @stored field _ _ hsome hseen hread =>
            have hfield : field ∈ fields := List.mem_of_find?_eq_some hsome
            obtain rfl : field.name = key := by simpa using List.find?_some hsome
            obtain ⟨gap', value, hgap', hvalue, hcontent⟩ := htakes field hfield hread
            obtain ⟨front, hfront, htext⟩ := hmember hgap' hvalue hcontent
            have hstores : field.Stores value record stored := ⟨hvalue, gap', _, hgap', hcontent ▸ hread⟩
            refine ⟨_, (field.name, value) :: members, front, hfront, htext, .cons ⟨hname, rfl⟩ hnames,
              .stored hfield hstores (hseen' field hfield List.mem_cons_self) hbuilds, ?_⟩
            intro other hother hmem
            have hne : other.name ≠ field.name := fun heq => hseen (heq ▸ hmem)
            exact List.not_mem_cons_of_ne_of_not_mem hne (hseen' other hother (List.mem_cons_of_mem _ hmem))

theorem readArray_builds (htakes : ∀ field ∈ fields, field.Takes) (hbehind : behind ⊆ fields)
    (hnames : (behind.map Field.name).Nodup) (h : readArray expected index behind record text = .ok (result, left)) :
    ∃ values front, Form (.items (decide (index = 0)) values) front ∧ text = front ++ left ∧ values.length = behind.length ∧
      Builds fields record ((behind.map Field.name).zip values) result := by
  induction behind generalizing index record text with
  | nil =>
      obtain ⟨hclose, rfl⟩ := readArray_nil h
      obtain ⟨gap, hgap, rfl⟩ := exists_gap hclose
      exact ⟨[], gap ++ [']'], .endItems hgap, by simp, rfl, .nil _⟩
  | cons field behind ih =>
      rw [List.cons_subset] at hbehind
      rw [List.map_cons, List.nodup_cons] at hnames
      obtain ⟨start, stored, rest, hbegins, hread, hrest⟩ := readArray_cons h
      obtain ⟨values, more, hmore, rfl, hlength, hbuilds⟩ := ih hbehind.2 hnames.2 hrest
      obtain ⟨gap, value, hgap, hvalue, rfl⟩ := htakes field hbehind.1 hread
      obtain ⟨lead, hlead, rfl⟩ := exists_lead hbegins hgap
      have honce : field.name ∉ ((behind.map Field.name).zip values).map Prod.fst := by
        rw [List.map_fst_zip (by rw [List.length_map, hlength])]
        exact hnames.1
      exact ⟨value :: values, _, .item hlead hvalue hmore, by simp, by rw [List.length_cons, List.length_cons, hlength],
        .stored hbehind.1 ⟨hvalue, gap, _, hgap, hread⟩ honce hbuilds⟩

/-- A text that is read as a record has members that make it of the empty one. -/
theorem run_record_builds {text : String} (htakes : ∀ field ∈ fields, field.Takes)
    (hnames : (fields.map Field.name).Nodup) (h : run (Reader.record title fields record) text = .ok result) :
    ∃ members, IsRecord (fields.map Field.name) text.toList members ∧ Builds fields record members result := by
  obtain ⟨⟨content, rest⟩, hrecord, h⟩ := bind_eq_ok_iff.mp h
  obtain ⟨_, hend, h⟩ := bind_eq_ok_iff.mp h
  cases h
  have hend : skipSpace rest = [] := by
    unfold Value.readEnd at hend
    split at hend
    · assumption
    · cases hend
  obtain ⟨after, hafter, rfl⟩ := exists_gap hend
  rw [Reader.record] at hrecord
  split at hrecord
  · next hopen =>
    obtain ⟨values, front, hfront, rfl, hlength, hbuilds⟩ := readArray_builds htakes (List.Subset.refl fields) hnames hrecord
    obtain ⟨before, hbefore, htext⟩ := exists_gap hopen
    rw [htext, List.append_nil]
    exact ⟨_, .array hbefore hfront (by rw [hlength, List.length_map]) hafter, hbuilds⟩
  · next hopen =>
    obtain ⟨written, members, front, hfront, rfl, hwritten, hbuilds, -⟩ := readObject_builds htakes hrecord
    obtain ⟨before, hbefore, htext⟩ := exists_gap hopen
    rw [htext, List.append_nil]
    exact ⟨members, .object hbefore hfront hwritten hafter, hbuilds⟩
  · cases hrecord

/-- The key of a field stands among the members once at most. -/
theorem Builds.count_le (h : Builds fields record members result) (hfield : field ∈ fields) :
    (members.map Prod.fst).count field.name ≤ 1 := by
  induction h with
  | nil => exact Nat.zero_le 1
  | passed hkey _ ih => rwa [List.map_cons, List.count_cons_of_ne (hkey field hfield).symm]
  | @stored other _ _ _ _ members _ _ honce _ ih =>
      by_cases hname : other.name = field.name
      · rw [List.map_cons, hname, List.count_cons_self, List.count_eq_zero_of_not_mem (hname ▸ honce)]
      · rwa [List.map_cons, List.count_cons_of_ne hname]

/-- A part of a record that is what the value of one key says: the field of this key sets it, and the others leave it as it
is. -/
structure Part (fields : List (Field ρ)) (key : String) (get : ρ → Option α) (means : List Char → α → Prop) : Prop where
  known : ∃ field ∈ fields, field.name = key
  sets : ∀ field ∈ fields, field.name = key → ∀ ⦃value record stored⦄, field.Stores value record stored →
    OrNull means value (get stored)
  keeps : ∀ field ∈ fields, field.name ≠ key → ∀ ⦃value record stored⦄, field.Stores value record stored →
    get stored = get record

/-- A part that is empty at first is what the members give for its key. -/
theorem Builds.gives (hpart : Part fields key get means) (h : Builds fields record members result) (hempty : get record = none) :
    Gives means members key (get result) := by
  have hgives : (key ∉ members.map Prod.fst ∧ get result = get record) ∨
      ∃ text, (key, text) ∈ members ∧ OrNull means text (get result) := by
    clear hempty
    induction h with
    | nil => exact Or.inl ⟨List.not_mem_nil, rfl⟩
    | @passed _ _ other _ members hkey _ ih =>
        obtain ⟨field, hfield, rfl⟩ := hpart.known
        obtain ⟨habsent, hget⟩ | ⟨text, hmem, hmember⟩ := ih
        · exact Or.inl ⟨List.not_mem_cons_of_ne_of_not_mem (hkey field hfield) habsent, hget⟩
        · exact Or.inr ⟨text, List.mem_cons_of_mem _ hmem, hmember⟩
    | @stored field _ stored _ content members hfield hstores honce _ ih =>
        by_cases hname : field.name = key
        · subst hname
          obtain ⟨-, hget⟩ | ⟨text, hmem, -⟩ := ih
          · exact Or.inr ⟨content, List.mem_cons_self, hget ▸ hpart.sets field hfield rfl hstores⟩
          · exact absurd (List.mem_map_of_mem hmem) honce
        · rw [hpart.keeps field hfield hname hstores] at ih
          obtain ⟨habsent, hget⟩ | ⟨text, hmem, hmember⟩ := ih
          · exact Or.inl ⟨List.not_mem_cons_of_ne_of_not_mem (Ne.symm hname) habsent, hget⟩
          · exact Or.inr ⟨text, List.mem_cons_of_mem _ hmem, hmember⟩
  rwa [hempty] at hgives

end Reader

end RouteBook.Json
