import Mathlib.Tactic
import RouteBook.CommandLine.Parse
import RouteBook.Proofs.Text.Decoding
import RouteBook.Proofs.Text.Lookup
import RouteBook.Proofs.Text.Traversal

/-! Ways to give flags. A flag goes by its long or its short name, and its value is the next argument or stands in the same
one; whichever way the flags are written and in whatever order, the command line is read as the flags with their values, and
every command line that is accepted is written in these ways. A variable counts for its flag when the flag is not given. -/

namespace RouteBook.CommandLine

variable {command : Command} {flag : Flag} {flags : List Flag} {attached : Option Bytes} {value name : Bytes}
  {words : List Bytes} {given : List (Flag × Bytes)} {progress next final : Progress} {environment : Environment}

/-! ### Spellings -/

/-- What names a flag: two dashes and its long name, or a dash and its short one. -/
inductive Names (flag : Flag) : Bytes → Prop
  | long : Names flag (utf8 ("--" ++ flag.long))
  | short {c : Char} (hshort : flag.short = some c) : Names flag (utf8 (String.ofList ['-', c]))

/-- A word that may be a value on its own: it does not look like a flag. It need not be a text. -/
def IsValue (word : Bytes) : Prop := ∀ b more, word ≠ dash :: b :: more

/-- What stands behind a flag's name in the same argument: nothing, or an equals sign and the value. -/
def attachment : Option Bytes → Bytes
  | none => []
  | some value => equalsSign :: value

/-- Words that give flags, with the value of each. -/
inductive Spells (command : Command) : List Bytes → List (Flag × Bytes) → Prop
  | nil : Spells command [] []
  | dashes : Spells command [utf8 "--"] []
  | apart {flag : Flag} {name value : Bytes} {words : List Bytes} {given : List (Flag × Bytes)}
    (hflag : flag ∈ command.flags) (hname : Names flag name) (hvalue : IsValue value)
    (hmore : Spells command words given) : Spells command (name :: value :: words) ((flag, value) :: given)
  | joined {flag : Flag} {name value : Bytes} {words : List Bytes} {given : List (Flag × Bytes)}
    (hflag : flag ∈ command.flags) (hname : Names flag name) (hmore : Spells command words given) :
    Spells command ((name ++ attachment (some value)) :: words) ((flag, value) :: given)
  | fused {flag : Flag} {c : Char} {b : UInt8} {more : Bytes} {words : List Bytes} {given : List (Flag × Bytes)}
    (hflag : flag ∈ command.flags) (hshort : flag.short = some c) (hvalue : b ≠ equalsSign)
    (hmore : Spells command words given) :
    Spells command ((utf8 (String.ofList ['-', c]) ++ b :: more) :: words) ((flag, b :: more) :: given)

/-- Each flag of the command is found by its names, and no name can be taken for anything else. -/
structure Command.Unambiguous (command : Command) : Prop where
  long : ∀ flag ∈ command.flags, command.find? flag.long = some flag
  short : ∀ flag ∈ command.flags, ∀ c, flag.short = some c → command.findShort? c = some flag ∧ c ≠ '-'
  plain : ∀ flag ∈ command.flags, flag.long.toList ≠ [] ∧ '=' ∉ flag.long.toList

/-! ### One step of the reading -/

namespace Progress

theorem take_eq_ok_iff {value : Bytes} :
    progress.take flag value = .ok next ↔ flag ∉ progress.used ∧ check flag value = .ok () ∧
      next = { progress with settled := progress.settled ++ [(flag, value)] } := by
  unfold take
  by_cases hused : flag ∈ progress.used
  · rw [if_pos hused]
    exact ⟨nofun, fun h => absurd hused h.1⟩
  · rw [if_neg hused, bind_eq_ok_iff]
    constructor
    · rintro ⟨_, hcheck, h⟩
      exact ⟨hused, hcheck, (Except.ok.inj h).symm⟩
    · rintro ⟨-, hcheck, rfl⟩
      exact ⟨(), hcheck, rfl⟩

theorem waiting_of_take {value : Bytes} (h : progress.take flag value = .ok next) : next.waiting = progress.waiting := by
  obtain ⟨-, -, rfl⟩ := take_eq_ok_iff.mp h
  rfl

/-- The last flag of the words still lacks its value. -/
def Awaits (progress : Progress) : Prop := ∃ flag, progress.waiting = some (flag, none)

theorem settle_of_none (h : progress.waiting = none) : progress.settle = .ok progress := by rw [settle, h]

theorem waiting_of_settle (h : progress.settle = .ok next) : next.waiting = none := by
  unfold settle at h
  split at h
  · next hnone =>
    cases h
    exact hnone
  · cases h
  · exact waiting_of_take h

theorem not_awaits_of_settle (h : progress.settle = .ok next) : ¬progress.Awaits := by
  rintro ⟨flag, hwaiting⟩
  rw [settle, hwaiting] at h
  cases h

theorem give_eq_ok {attached : Option Bytes} (h : progress.give flag attached = .ok next) :
    ¬progress.Awaits ∧ (next.Awaits ↔ attached = none) := by
  obtain ⟨settled, hsettle, h⟩ := bind_eq_ok_iff.mp h
  refine ⟨not_awaits_of_settle hsettle, ?_⟩
  cases attached with
  | none =>
      cases h
      exact ⟨fun _ => rfl, fun _ => ⟨flag, rfl⟩⟩
  | some value =>
      simp [Awaits, waiting_of_take h, waiting_of_settle hsettle]

end Progress

/-! ### What an argument is read as -/

theorem utf8_long (flag : Flag) : utf8 ("--" ++ flag.long) = dash :: dash :: utf8 flag.long := by
  have hdashes : utf8 "--" = [dash, dash] := by decide
  rw [utf8_append, hdashes]
  rfl

theorem utf8_short (c : Char) : utf8 (String.ofList ['-', c]) = dash :: String.utf8EncodeChar c := by
  rw [utf8_eq_flatMap, String.toList_ofList, List.flatMap_cons, List.flatMap_singleton]
  rfl

theorem shape_long {name : Bytes} (h : name ≠ []) : shape (dash :: dash :: name) = .long name := by
  simp [shape, h]

theorem shape_short {b : UInt8} (h : b ≠ dash) (rest : Bytes) : shape (dash :: b :: rest) = .short (b :: rest) := by
  simp [shape, h]

theorem shape_value (h : IsValue value) : shape value = .value := by
  match value, h with
  | [], _ | [_], _ => rfl
  | a :: b :: rest, h =>
      have hdash : a ≠ dash := fun heq => h b rest (by rw [heq])
      exact if_pos hdash

/-- What an argument consists of, by its shape. -/
theorem shape_cases (argument : Bytes) :
    (shape argument = .dashes ∧ argument = utf8 "--") ∨
      (∃ name, shape argument = .long name ∧ argument = dash :: dash :: name) ∨
      (∃ names, shape argument = .short names ∧ argument = dash :: names) ∨
      shape argument = .value ∧ IsValue argument := by
  match argument with
  | [] | [_] => exact Or.inr (Or.inr (Or.inr ⟨rfl, fun b more h => by simp at h⟩))
  | a :: b :: rest =>
      simp only [shape]
      split_ifs with ha hb hrest
      · exact Or.inr (Or.inr (Or.inr ⟨rfl, fun b more h => ha (List.cons_eq_cons.mp h).1⟩))
      · exact Or.inr (Or.inr (Or.inl ⟨_, rfl, by rw [not_not.mp ha]⟩))
      · refine Or.inl ⟨rfl, ?_⟩
        rw [not_not.mp ha, not_not.mp hb, hrest]
        decide
      · exact Or.inr (Or.inl ⟨_, rfl, by rw [not_not.mp ha, not_not.mp hb]⟩)

theorem utf8_long_ne_nil (h : flag.long.toList ≠ []) : utf8 flag.long ≠ [] := by
  intro hnil
  obtain hempty : flag.long = "" := utf8_injective hnil
  exact h (by rw [hempty]; rfl)

/-- The name behind one dash does not start with another. -/
theorem exists_short_bytes {c : Char} (h : c ≠ '-') : ∃ b more, String.utf8EncodeChar c = b :: more ∧ b ≠ dash := by
  obtain ⟨b, more, hbytes, -⟩ := Bytes.firstChar_utf8EncodeChar c []
  refine ⟨b, more, hbytes, ?_⟩
  rintro rfl
  have hmem : asciiByte '-' ∈ utf8 (String.ofList [c]) := by
    rw [utf8_eq_flatMap, String.toList_ofList, List.flatMap_singleton, hbytes]
    exact List.mem_cons_self
  rw [asciiByte_mem_utf8_iff (by decide), String.toList_ofList, List.mem_singleton] at hmem
  exact h hmem.symm

theorem takeWhile_long (hlong : '=' ∉ flag.long.toList) (attached : Option Bytes) :
    (utf8 flag.long ++ attachment attached).takeWhile (fun b => decide (b ≠ equalsSign)) = utf8 flag.long := by
  have hplain : ∀ b ∈ utf8 flag.long, decide (b ≠ equalsSign) = true := by
    intro b hb
    refine decide_eq_true ?_
    rintro rfl
    exact hlong ((asciiByte_mem_utf8_iff (by decide)).mp hb)
  rw [List.takeWhile_append_of_pos hplain]
  cases attached with
  | none => exact List.append_nil _
  | some value => rw [attachment, List.takeWhile_cons_of_neg (by simp), List.append_nil]

theorem readLong_attachment (hcommand : command.Unambiguous) (hflag : flag ∈ command.flags) (progress : Progress)
    (attached : Option Bytes) :
    readLong command progress (utf8 flag.long ++ attachment attached) = progress.give flag attached := by
  have hname := takeWhile_long (hcommand.plain flag hflag).2 attached
  rw [readLong]
  simp only [hname, List.drop_left, utf8?_utf8, Option.bind_some, hcommand.long flag hflag]
  cases attached with
  | none => rfl
  | some value => simp [attachment]

theorem readShort_attachment (hcommand : command.Unambiguous) (hflag : flag ∈ command.flags) {c : Char}
    (hshort : flag.short = some c) (progress : Progress) (attached : Option Bytes) :
    readShort command progress (String.utf8EncodeChar c ++ attachment attached) = progress.give flag attached := by
  rw [readShort, Bytes.firstChar?_eq_some_iff.mpr rfl]
  simp only [(hcommand.short flag hflag c hshort).1]
  cases attached with
  | none => rfl
  | some value => rfl

/-- An argument that is a flag's name, with a value attached or not, gives the flag. -/
theorem readAll_named (hcommand : command.Unambiguous) (hflag : flag ∈ command.flags) (hname : Names flag name)
    (attached : Option Bytes) (progress : Progress) (words : List Bytes) :
    readAll command progress ((name ++ attachment attached) :: words) =
      progress.give flag attached >>= fun next => readAll command next words := by
  cases hname with
  | long =>
      have hne : utf8 flag.long ++ attachment attached ≠ [] :=
        List.append_ne_nil_of_left_ne_nil (utf8_long_ne_nil (hcommand.plain flag hflag).1) _
      rw [← readLong_attachment hcommand hflag progress attached, utf8_long, List.cons_append, List.cons_append,
        readAll.eq_def]
      simp only [shape_long hne]
  | @short c hshort =>
      rw [← readShort_attachment hcommand hflag hshort progress attached, utf8_short]
      obtain ⟨b, more, hbytes, hdash⟩ := exists_short_bytes (hcommand.short flag hflag c hshort).2
      rw [hbytes, List.cons_append, List.cons_append, readAll.eq_def]
      simp only [shape_short hdash]

/-- A flag's short name with the value right behind it gives the flag. -/
theorem readAll_fused (hcommand : command.Unambiguous) (hflag : flag ∈ command.flags) {c : Char} {b : UInt8} {more : Bytes}
    (hshort : flag.short = some c) (hvalue : b ≠ equalsSign) (progress : Progress) (words : List Bytes) :
    readAll command progress ((utf8 (String.ofList ['-', c]) ++ b :: more) :: words) =
      progress.give flag (some (b :: more)) >>= fun next => readAll command next words := by
  obtain ⟨hfind, hne⟩ := hcommand.short flag hflag c hshort
  have hread : readShort command progress (String.utf8EncodeChar c ++ b :: more) = progress.give flag (some (b :: more)) := by
    rw [readShort, Bytes.firstChar?_eq_some_iff.mpr rfl]
    simp [hfind, hvalue]
  obtain ⟨first, rest, hbytes, hdash⟩ := exists_short_bytes hne
  rw [← hread, utf8_short, hbytes, List.cons_append, List.cons_append, readAll.eq_def]
  simp only [shape_short hdash]

/-- A value on its own is that of the flag in front of it, and of no other. -/
theorem readAll_value (hvalue : IsValue value) (progress : Progress) (words : List Bytes) :
    readAll command progress (value :: words) =
      match progress.waiting with
      | some (flag, none) => readAll command { progress with waiting := some (flag, some value) } words
      | _ => .error (.unknown (lossy value) none []) := by
  rw [readAll.eq_def]
  rcases hwaiting : progress.waiting with _ | ⟨flag, _ | taken⟩ <;> simp only [shape_value hvalue, hwaiting]

/-! ### Command lines -/

/-- Takes flags with their values, one after another. -/
def Progress.takeAll (progress : Progress) (given : List (Flag × Bytes)) : Except Refusal Progress :=
  given.foldlM (fun progress (flag, value) => progress.take flag value) progress

theorem Progress.takeAll_cons (progress : Progress) (flag : Flag) (value : Bytes) (given : List (Flag × Bytes)) :
    progress.takeAll ((flag, value) :: given) = progress.take flag value >>= fun next => next.takeAll given :=
  List.foldlM_cons ..

theorem Progress.give_some (progress : Progress) (flag : Flag) (value : Bytes) :
    progress.give flag (some value) = progress.settle >>= fun settled => settled.take flag value := rfl

theorem Progress.give_none (progress : Progress) (flag : Flag) :
    progress.give flag none =
      progress.settle >>= fun settled => .ok { settled with waiting := some (flag, none) } := rfl

theorem Progress.bind_settle {β : Type} {first second : Progress → Except Refusal β}
    (h : ∀ settled : Progress, settled.waiting = none → first settled = second settled) (progress : Progress) :
    progress.settle >>= first = progress.settle >>= second := by
  cases hsettle : progress.settle with
  | error refusal => rfl
  | ok settled => exact h settled (waiting_of_settle hsettle)

/-- However flags are written, what is read is the flags with their values. -/
theorem readAll_spells (hcommand : command.Unambiguous) (h : Spells command words given) (progress : Progress) :
    readAll command progress words = progress.settle >>= fun next => next.takeAll given := by
  -- A flag with its value in the same argument leaves nothing waiting, so the words behind it go on from there.
  have hgive : ∀ {words : List Bytes} {given : List (Flag × Bytes)} (flag : Flag) (value : Bytes),
      (∀ progress, readAll command progress words = progress.settle >>= fun next => next.takeAll given) →
      ∀ progress : Progress, (progress.give flag (some value) >>= fun next => readAll command next words) =
        progress.settle >>= fun next => next.takeAll ((flag, value) :: given) := by
    intro words given flag value ih progress
    rw [Progress.give_some, bind_assoc]
    refine Progress.bind_settle (fun settled hsettled => ?_) progress
    rw [Progress.takeAll_cons]
    cases htake : settled.take flag value with
    | error refusal => rfl
    | ok next =>
        have hnext : next.waiting = none := (Progress.waiting_of_take htake).trans hsettled
        rw [ok_bind, ok_bind, ih, Progress.settle_of_none hnext, ok_bind]
  induction h generalizing progress with
  | nil => exact (bind_pure progress.settle).symm
  | dashes => exact (bind_pure progress.settle).symm
  | @apart flag name value words given hflag hname hvalue _ ih =>
      have hread := readAll_named hcommand hflag hname none progress (value :: words)
      rw [attachment, List.append_nil] at hread
      rw [hread, Progress.give_none, bind_assoc]
      refine Progress.bind_settle (fun settled hsettled => ?_) progress
      have hsame : { settled with waiting := none } = settled := by rw [← hsettled]
      rw [ok_bind, readAll_value hvalue]
      dsimp only
      rw [ih, Progress.takeAll_cons, Progress.settle]
      dsimp only
      rw [hsame]
  | @joined flag name value words given hflag hname _ ih =>
      rw [readAll_named hcommand hflag hname]
      exact hgive flag value ih progress
  | fused hflag hshort hvalue _ ih =>
      rw [readAll_fused hcommand hflag hshort hvalue]
      exact hgive _ _ ih progress

/-! ### Every accepted command line -/

theorem readLong_eq_ok {argument : Bytes} (h : readLong command progress argument = .ok next) :
    ∃ flag ∈ command.flags, ∃ attached, argument = utf8 flag.long ++ attachment attached ∧
      progress.give flag attached = .ok next := by
  unfold readLong at h
  extract_lets front attached value name at h
  have hsplit : front ++ argument.dropWhile (fun b => decide (b ≠ equalsSign)) = argument := List.takeWhile_append_dropWhile
  have hattached : attached = argument.dropWhile (fun b => decide (b ≠ equalsSign)) := by
    have hdrop : (front ++ argument.dropWhile (fun b => decide (b ≠ equalsSign))).drop front.length = _ := List.drop_left
    rwa [hsplit] at hdrop
  split at h
  · next flag hfind =>
    obtain ⟨text, htext, hfind⟩ := Option.bind_eq_some_iff.mp hfind
    have hlong : flag.long = text := by simpa using List.find?_some hfind
    refine ⟨flag, List.mem_of_find?_eq_some hfind, value, ?_, h⟩
    rw [hlong, ← utf8?_eq_some_iff.mp htext]
    conv_lhs => rw [← hsplit, ← hattached]
    have hhead := List.head?_dropWhile_not (fun b => decide (b ≠ equalsSign)) argument
    rw [← hattached] at hhead
    simp only [value]
    clear_value attached
    cases attached with
    | nil => rfl
    | cons b more =>
        obtain rfl : b = equalsSign := by simpa using hhead
        simp [attachment]
  · clear_value value
    split at h
    · cases h
    · obtain ⟨_, -, h⟩ := bind_eq_ok_iff.mp h
      cases h
  · cases h

theorem readShort_eq_ok {argument : Bytes} (h : readShort command progress argument = .ok next) :
    ∃ flag ∈ command.flags, ∃ c rest, flag.short = some c ∧ argument = String.utf8EncodeChar c ++ rest ∧
      ((∃ attached, rest = attachment attached ∧ progress.give flag attached = .ok next) ∨
        ∃ b more, rest = b :: more ∧ b ≠ equalsSign ∧ progress.give flag (some rest) = .ok next) := by
  unfold readShort at h
  split at h
  · cases h
  · next c rest hfirst =>
    have hargument := Bytes.firstChar?_eq_some_iff.mp hfirst
    split at h
    · next flag hfind =>
      refine ⟨flag, List.mem_of_find?_eq_some hfind, c, rest, by simpa using List.find?_some hfind, hargument, ?_⟩
      cases rest with
      | nil => exact Or.inl ⟨none, rfl, h⟩
      | cons b more =>
          by_cases hb : b = equalsSign
          · exact Or.inl ⟨some more, by rw [hb, attachment], by simpa only [if_pos hb] using h⟩
          · exact Or.inr ⟨b, more, rfl, hb, by simpa only [if_neg hb] using h⟩
    · obtain ⟨_, -, h⟩ := bind_eq_ok_iff.mp h
      cases h
    · cases h

/-- What is accepted behind the words read so far is the value that is still missing, if one is, and then words that give
flags. -/
theorem exists_spells_of_readAll (h : readAll command progress words = .ok final) :
    (progress.Awaits ∧ ∃ value rest given, words = value :: rest ∧ IsValue value ∧ Spells command rest given) ∨
      ¬progress.Awaits ∧ ∃ given, Spells command words given := by
  induction words generalizing progress with
  | nil => exact Or.inr ⟨Progress.not_awaits_of_settle h, [], .nil⟩
  | cons word words ih =>
      have hgive : ∀ {flag name attached next}, flag ∈ command.flags → Names flag name →
          word = name ++ attachment attached → progress.give flag attached = .ok next →
          readAll command next words = .ok final → ¬progress.Awaits ∧ ∃ given, Spells command (word :: words) given := by
        intro flag name attached next hflag hname hword hgive h
        obtain ⟨hprogress, hnext⟩ := Progress.give_eq_ok hgive
        refine ⟨hprogress, ?_⟩
        rw [hword]
        cases attached with
        | none =>
            rw [attachment, List.append_nil]
            obtain ⟨-, value, rest, given, rfl, hvalue, hspells⟩ | ⟨hnot, -⟩ := ih h
            · exact ⟨_, .apart hflag hname hvalue hspells⟩
            · exact absurd (hnext.mpr rfl) hnot
        | some value =>
            obtain ⟨hawaits, -⟩ | ⟨-, given, hspells⟩ := ih h
            · exact absurd (hnext.mp hawaits) (by simp)
            · exact ⟨_, .joined hflag hname hspells⟩
      rw [readAll.eq_def] at h
      obtain ⟨hshape, rfl⟩ | ⟨argument, hshape, rfl⟩ | ⟨argument, hshape, rfl⟩ | ⟨hshape, hvalue⟩ := shape_cases word
      all_goals simp only [hshape] at h
      · split at h
        · exact Or.inr ⟨Progress.not_awaits_of_settle h, [], .dashes⟩
        · cases h
      · obtain ⟨next, hread, hmore⟩ := bind_eq_ok_iff.mp h
        obtain ⟨flag, hflag, attached, rfl, hgiven⟩ := readLong_eq_ok hread
        refine Or.inr (hgive hflag .long ?_ hgiven hmore)
        rw [utf8_long, List.cons_append, List.cons_append]
      · obtain ⟨next, hread, hmore⟩ := bind_eq_ok_iff.mp h
        obtain ⟨flag, hflag, c, rest, hshort, rfl, ⟨attached, rfl, hgiven⟩ | ⟨b, more, rfl, hb, hgiven⟩⟩ :=
          readShort_eq_ok hread
        · refine Or.inr (hgive hflag (.short hshort) ?_ hgiven hmore)
          rw [utf8_short, List.cons_append]
        · obtain ⟨hprogress, hnext⟩ := Progress.give_eq_ok hgiven
          obtain ⟨hawaits, -⟩ | ⟨-, given, hspells⟩ := ih hmore
          · exact absurd (hnext.mp hawaits) (by simp)
          · have hfused : Spells command ((utf8 (String.ofList ['-', c]) ++ b :: more) :: words) ((flag, b :: more) :: given) :=
              .fused hflag hshort hb hspells
            rw [utf8_short, List.cons_append] at hfused
            exact Or.inr ⟨hprogress, _, hfused⟩
      · split at h
        · next flag hwaiting =>
          obtain ⟨⟨_, hawaits⟩, -⟩ | ⟨-, given, hspells⟩ := ih h
          · cases hawaits
          · exact Or.inl ⟨⟨flag, hwaiting⟩, word, words, given, rfl, hvalue, hspells⟩
        · cases h

/-! ### Values of flags -/

namespace Progress

/-- Flags are taken if none of them is given twice and every value is one that its flag takes. -/
theorem takeAll_eq_ok_iff :
    progress.takeAll given = .ok final ↔
      (∀ pair ∈ given, pair.1 ∉ progress.used) ∧ (given.map Prod.fst).Nodup ∧
        (∀ pair ∈ given, check pair.1 pair.2 = .ok ()) ∧
        final = { progress with settled := progress.settled ++ given } := by
  induction given generalizing progress with
  | nil => simp [takeAll, pure, Except.pure, eq_comm]
  | cons pair given ih =>
      obtain ⟨flag, value⟩ := pair
      have hused : ∀ other, other ∉ ({ progress with settled := progress.settled ++ [(flag, value)] } : Progress).used ↔
          other ∉ progress.used ∧ other ≠ flag := by simp [used]
      have hapart : (∀ pair ∈ given, pair.1 ∉ progress.used ∧ pair.1 ≠ flag) ↔
          (∀ pair ∈ given, pair.1 ∉ progress.used) ∧ flag ∉ given.map Prod.fst := by
        rw [forall₂_and]
        refine and_congr_right fun _ => ?_
        simp only [List.mem_map, not_exists, not_and]
      rw [takeAll_cons, bind_eq_ok_iff]
      simp only [take_eq_ok_iff, ih, List.forall_mem_cons, List.map_cons, List.nodup_cons]
      constructor
      · rintro ⟨next, ⟨hflag, hcheck, rfl⟩, hgiven, hnodup, hchecks, rfl⟩
        simp only [hused, hapart] at hgiven
        exact ⟨⟨hflag, hgiven.1⟩, ⟨hgiven.2, hnodup⟩, ⟨hcheck, hchecks⟩, by simp⟩
      · rintro ⟨⟨hflag, hgiven⟩, ⟨hmem, hnodup⟩, ⟨hcheck, hchecks⟩, rfl⟩
        refine ⟨_, ⟨hflag, hcheck, rfl⟩, ?_, hnodup, hchecks, by simp⟩
        simp only [hused, hapart]
        exact ⟨hgiven, hmem⟩

/-- Every value is one that its flag takes. -/
def Checked (progress : Progress) : Prop := ∀ pair ∈ progress.settled, check pair.1 pair.2 = .ok ()

theorem Checked.take {value : Bytes} (hprogress : progress.Checked) (h : progress.take flag value = .ok next) :
    next.Checked := by
  obtain ⟨-, hcheck, rfl⟩ := take_eq_ok_iff.mp h
  intro pair hpair
  rcases List.mem_append.mp hpair with hpair | hpair
  · exact hprogress pair hpair
  · obtain rfl := List.mem_singleton.mp hpair
    exact hcheck

end Progress

/-- The value that a variable stands in with. -/
def Flag.standInValue? (flag : Flag) (environment : Environment) : Option Bytes := flag.standIn?.bind (environment.lookup ·)

/-- A flag's variable is passed over, as it is not set or the flag has a value, or it gives the value. -/
theorem addVariables_cases (h : addVariables environment (flag :: flags) progress = .ok final) :
    ∃ next, addVariables environment flags next = .ok final ∧
      ((next = progress ∧ (flag.standInValue? environment = none ∨ flag ∈ progress.used)) ∨
        ∃ value, flag.standInValue? environment = some value ∧ flag ∉ progress.used ∧ progress.take flag value = .ok next) := by
  rw [addVariables] at h
  split at h
  · next value hvariable =>
    dsimp only at h
    split_ifs at h with hused
    · exact ⟨progress, h, Or.inl ⟨rfl, Or.inr hused⟩⟩
    · obtain ⟨next, htake, h⟩ := bind_eq_ok_iff.mp h
      exact ⟨next, h, Or.inr ⟨value, hvariable, hused, htake⟩⟩
  · next hvariable => exact ⟨progress, h, Or.inl ⟨rfl, Or.inl hvariable⟩⟩

theorem checked_addVariables (hprogress : progress.Checked) (h : addVariables environment flags progress = .ok final) :
    final.Checked := by
  induction flags generalizing progress with
  | nil =>
      cases h
      exact hprogress
  | cons flag flags ih =>
      obtain ⟨next, hmore, ⟨rfl, -⟩ | ⟨value, -, -, htake⟩⟩ := addVariables_cases h
      · exact ih hprogress hmore
      · exact ih (hprogress.take htake) hmore

/-- After the variables each flag has the value it had, or else that of its variable. -/
theorem lookup_addVariables (h : addVariables environment flags progress = .ok final) (flag : Flag) :
    final.settled.lookup flag =
      (progress.settled.lookup flag).or (if flag ∈ flags then flag.standInValue? environment else none) := by
  induction flags generalizing progress with
  | nil =>
      cases h
      simp
  | cons other flags ih =>
      obtain ⟨next, hmore, hnext⟩ := addVariables_cases h
      have hlookup : next.settled.lookup flag =
          (progress.settled.lookup flag).or (if flag = other then flag.standInValue? environment else none) := by
        obtain ⟨rfl, hvariable | hused⟩ | ⟨value, hvariable, hused, htake⟩ := hnext
        · by_cases hflag : flag = other
          · simp [hflag, hvariable]
          · simp [hflag]
        · by_cases hflag : flag = other
          · subst hflag
            obtain ⟨value, hvalue⟩ := Option.isSome_iff_exists.mp (mem_keys_iff_isSome.mp hused)
            simp [hvalue]
          · simp [hflag]
        · obtain ⟨-, -, rfl⟩ := Progress.take_eq_ok_iff.mp htake
          rw [List.lookup_append]
          by_cases hflag : flag = other
          · simp [hflag, hvariable]
          · rw [List.lookup_cons, beq_false_of_ne hflag]
            simp [hflag]
      rw [ih hmore, hlookup]
      by_cases hflag : flag = other
      · rw [if_pos hflag, if_pos (List.mem_cons.mpr (Or.inl hflag)), Option.or_assoc]
        congr 1
        split_ifs <;> simp
      · simp [hflag]

/-! ### What a command line gives -/

/-- A command line that is accepted gives each of its flags once, every flag has its own value or else that of its variable,
and every value is one that the flag takes. -/
theorem parse_eq_ok {values : List (Flag × Bytes)} (hcommand : command.Unambiguous) (hspells : Spells command words given)
    (h : parse command environment words = .ok values) :
    (given.map Prod.fst).Nodup ∧ (∀ pair ∈ values, check pair.1 pair.2 = .ok ()) ∧
      ∀ flag ∈ command.flags, values.lookup flag = (given.lookup flag).or (flag.standInValue? environment) := by
  obtain ⟨read, hread, h⟩ := bind_eq_ok_iff.mp h
  obtain ⟨final, hvariables, h⟩ := bind_eq_ok_iff.mp h
  cases h
  rw [readAll_spells hcommand hspells, Progress.settle_of_none rfl, ok_bind, Progress.takeAll_eq_ok_iff] at hread
  obtain ⟨-, hnodup, hchecks, rfl⟩ := hread
  refine ⟨hnodup, checked_addVariables ?_ hvariables, fun flag hflag => ?_⟩
  · simpa [Progress.Checked] using hchecks
  · rw [lookup_addVariables hvariables, if_pos hflag, List.nil_append]

theorem exists_spells {values : List (Flag × Bytes)} (h : parse command environment words = .ok values) :
    ∃ given, Spells command words given := by
  obtain ⟨read, hread, -⟩ := bind_eq_ok_iff.mp h
  obtain ⟨⟨flag, hwaiting⟩, -⟩ | ⟨-, hgiven⟩ := exists_spells_of_readAll hread
  · cases hwaiting
  · exact hgiven

end RouteBook.CommandLine
