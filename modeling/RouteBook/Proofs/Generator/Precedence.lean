import RouteBook.Generator.Command
import RouteBook.Proofs.CommandLine.Spelling
import RouteBook.Proofs.Json.Members
import RouteBook.Proofs.Text.Ascii

/-! Where each setting of a run comes from: its flag, else its variable, else its member of the configuration, else its
default. However the arguments spell the flags, and whatever else the configuration holds in whatever order, a setting
depends on these sources of its own alone. -/

namespace RouteBook.Generator

open CommandLine (Flag Environment Spells check)
open Json (Chooses Gives IsRecord IsText Meaning Reader)

variable {environment : Environment} {words : List Bytes} {arguments : Arguments} {text : String} {config : Config}
  {options : Options} {given : List (Flag × Bytes)} {members : List (String × List Char)}

/-! ### Members of the configuration -/

/-- A path is written as a string. -/
def IsPath (text : List Char) (path : Path) : Prop := ∃ name, IsText text name ∧ path = utf8 name

theorem meaning_isPath : Meaning IsPath := Json.meaning_isText.map utf8

namespace Config

/-- The names of a configuration's members, in the order of an array's items. -/
def memberNames : List String := ["file", "format", "output", "name"]

theorem puts_path (name : String) (store : Config → Option Path → Config) : (pathField name store).Puts IsPath store :=
  Reader.Field.Puts.map (Reader.puts_of_optional (Reader.reads_string "path string") fun _ _ => rfl)

theorem puts_file : fields[0].Puts IsPath fun config file => { config with file := file } :=
  puts_path "file" fun config file => { config with file := file }

theorem puts_output : fields[2].Puts IsPath fun config output => { config with output := output } :=
  puts_path "output" fun config output => { config with output := output }

theorem puts_format : fields[1].Puts (Chooses formatWords) fun config format => { config with format := format } :=
  Reader.puts_of_optional (Reader.reads_choice formatWords) fun _ _ => rfl

theorem puts_name : fields[3].Puts IsText fun config name => { config with name := name } :=
  Reader.puts_of_optional (Reader.reads_string "a string") fun _ _ => rfl

/-- What the member of each field puts into a configuration. -/
theorem puts_of_mem {field : Reader.Field Config} (h : field ∈ fields) :
    (field.name = "file" ∧ field.Puts IsPath fun config file => { config with file := file }) ∨
    (field.name = "format" ∧ field.Puts (Chooses formatWords) fun config format => { config with format := format }) ∨
    (field.name = "output" ∧ field.Puts IsPath fun config output => { config with output := output }) ∨
    (field.name = "name" ∧ field.Puts IsText fun config name => { config with name := name }) := by
  simp only [fields, List.mem_cons, List.not_mem_nil, or_false] at h
  obtain rfl | rfl | rfl | rfl := h
  · exact Or.inl ⟨rfl, puts_file⟩
  · exact Or.inr (Or.inl ⟨rfl, puts_format⟩)
  · exact Or.inr (Or.inr (Or.inl ⟨rfl, puts_output⟩))
  · exact Or.inr (Or.inr (Or.inr ⟨rfl, puts_name⟩))

theorem takes_of_mem {field : Reader.Field Config} (h : field ∈ fields) : field.Takes := by
  obtain ⟨-, hputs⟩ | ⟨-, hputs⟩ | ⟨-, hputs⟩ | ⟨-, hputs⟩ := puts_of_mem h
  · exact hputs.takes meaning_isPath
  · exact hputs.takes (Json.meaning_chooses formatWords)
  · exact hputs.takes meaning_isPath
  · exact hputs.takes Json.meaning_isText

/-- What one field puts into a configuration is a part of it if the others leave this as it is. -/
theorem part_of_puts {α : Type} {key : String} {get : Config → Option α} {means : List Char → α → Prop} (hmeaning : Meaning means)
    (put : Config → Option α → Config) (hputs : ∃ field ∈ fields, field.name = key ∧ field.Puts means put)
    (hget : ∀ config member, get (put config member) = member)
    (hfile : key ≠ "file" → ∀ config file, get { config with file := file } = get config)
    (hformat : key ≠ "format" → ∀ config format, get { config with format := format } = get config)
    (houtput : key ≠ "output" → ∀ config output, get { config with output := output } = get config)
    (hname : key ≠ "name" → ∀ config name, get { config with name := name } = get config) :
    Reader.Part fields key get means := by
  obtain ⟨field, hfield, rfl, hputs⟩ := hputs
  refine ⟨⟨field, hfield, rfl⟩, fun other hother hsame value record stored hstores => ?_,
    fun other hother hne value record stored hstores => ?_⟩
  · have hnames : (fields.map Reader.Field.name).Nodup := by decide
    obtain rfl : other = field := List.inj_on_of_nodup_map hnames hother hfield hsame
    obtain ⟨member, hmember, rfl⟩ := hputs.stores hmeaning hstores
    rwa [hget]
  · have hapart : ∀ {name}, other.name = name → field.name ≠ name := fun hother heq => hne (hother.trans heq.symm)
    obtain ⟨hother, hputs⟩ | ⟨hother, hputs⟩ | ⟨hother, hputs⟩ | ⟨hother, hputs⟩ := puts_of_mem hother
    · obtain ⟨member, -, rfl⟩ := hputs.stores meaning_isPath hstores
      exact hfile (hapart hother) record member
    · obtain ⟨member, -, rfl⟩ := hputs.stores (Json.meaning_chooses formatWords) hstores
      exact hformat (hapart hother) record member
    · obtain ⟨member, -, rfl⟩ := hputs.stores meaning_isPath hstores
      exact houtput (hapart hother) record member
    · obtain ⟨member, -, rfl⟩ := hputs.stores Json.meaning_isText hstores
      exact hname (hapart hother) record member

theorem part_file : Reader.Part fields "file" Config.file IsPath :=
  part_of_puts meaning_isPath (fun config file => { config with file := file })
    ⟨fields[0], List.getElem_mem _, rfl, puts_file⟩ (fun _ _ => rfl) (absurd rfl) (fun _ _ _ => rfl) (fun _ _ _ => rfl)
    fun _ _ _ => rfl

theorem part_format : Reader.Part fields "format" Config.format (Chooses formatWords) :=
  part_of_puts (Json.meaning_chooses formatWords) (fun config format => { config with format := format })
    ⟨fields[1], List.getElem_mem _, rfl, puts_format⟩ (fun _ _ => rfl) (fun _ _ _ => rfl) (absurd rfl) (fun _ _ _ => rfl)
    fun _ _ _ => rfl

theorem part_output : Reader.Part fields "output" Config.output IsPath :=
  part_of_puts meaning_isPath (fun config output => { config with output := output })
    ⟨fields[2], List.getElem_mem _, rfl, puts_output⟩ (fun _ _ => rfl) (fun _ _ _ => rfl) (fun _ _ _ => rfl) (absurd rfl)
    fun _ _ _ => rfl

theorem part_name : Reader.Part fields "name" Config.name IsText :=
  part_of_puts Json.meaning_isText (fun config name => { config with name := name })
    ⟨fields[3], List.getElem_mem _, rfl, puts_name⟩ (fun _ _ => rfl) (fun _ _ _ => rfl) (fun _ _ _ => rfl)
    (fun _ _ _ => rfl) (absurd rfl)

/-- The text of a configuration is a record, its known members stand there once at most, and each of its settings is what the
member of this name gives. -/
theorem parse_eq_ok (h : parse text = .ok config) :
    ∃ members, IsRecord memberNames text.toList members ∧ (∀ name ∈ memberNames, (members.map Prod.fst).count name ≤ 1) ∧
      Gives IsPath members "file" config.file ∧ Gives (Chooses formatWords) members "format" config.format ∧
      Gives IsPath members "output" config.output ∧ Gives IsText members "name" config.name := by
  obtain ⟨members, hrecord, hbuilds⟩ := Reader.run_record_builds (fun _ => takes_of_mem) (by decide) h
  refine ⟨members, hrecord, ?_, hbuilds.gives part_file rfl, hbuilds.gives part_format rfl, hbuilds.gives part_output rfl,
    hbuilds.gives part_name rfl⟩
  intro name hname
  obtain ⟨field, hfield, rfl⟩ := List.mem_map.mp (show name ∈ fields.map Reader.Field.name from hname)
  exact hbuilds.count_le hfield

end Config

/-! ### Flags and variables -/

theorem command_unambiguous : command.Unambiguous where
  long := by decide
  short := by
    intro flag hflag c hc
    simp only [command, List.mem_cons, List.not_mem_nil, or_false] at hflag
    rcases hflag with rfl | rfl | rfl | rfl | rfl
    · cases hc
      decide
    · cases hc
    · cases hc
      decide
    · cases hc
    · cases hc
  plain := by decide

/-- The word that chooses a format. -/
def Format.word : Format → String
  | .markdown => "markdown"
  | .openapi => "openapi"

theorem Format.lookup_word (format : Format) : formatWords.lookup format.word = some format := by cases format <;> rfl

theorem Format.word_injective : Function.Injective Format.word := by
  intro format other h
  have hlookup := format.lookup_word
  rw [h, other.lookup_word] at hlookup
  exact (Option.some.inj hlookup).symm

theorem exists_format_of_check {value : Bytes} (h : check formatFlag value = .ok ()) :
    ∃ format : Format, value = utf8 format.word := by
  have hvalues : formatFlag.values = .choice [("markdown", "ルートごとの Markdown"), ("openapi", "OpenAPI YAML")] := rfl
  simp only [check, hvalues] at h
  split at h
  · cases h
  · next word htext =>
    split_ifs at h with hempty hword
    have hword : word ∈ ["markdown", "openapi"] := hword
    simp only [List.mem_cons, List.not_mem_nil, or_false] at hword
    rw [utf8?_eq_some_iff.mp htext]
    rcases hword with rfl | rfl
    · exact ⟨.markdown, rfl⟩
    · exact ⟨.openapi, rfl⟩

theorem exists_text_of_check {value : Bytes} (h : check nameFlag value = .ok ()) : ∃ word, value = utf8 word := by
  simp only [check, nameFlag] at h
  split_ifs at h with htext
  obtain ⟨word, hword⟩ := Option.isSome_iff_exists.mp htext
  exact ⟨word, utf8?_eq_some_iff.mp hword⟩

/-- What the arguments hold: each flag is given once at most, and where it is not given its variable counts. Paths may be
any bytes; a format and a name are texts. -/
theorem Arguments.parse_eq_ok (hspells : Spells command words given) (h : Arguments.parse environment words = .ok arguments) :
    (given.map Prod.fst).Nodup ∧
      arguments.file = (given.lookup fileFlag).or (environment.lookup "API_DOCS_INPUT") ∧
      given.lookup formatFlag = arguments.format.map (fun format => utf8 format.word) ∧
      arguments.output = (given.lookup outputFlag).or (environment.lookup "API_DOCS_OUTPUT") ∧
      ∃ chosen standIn : Option String, given.lookup nameFlag = chosen.map utf8 ∧
        (given.lookup nameFlag = none → environment.lookup "API_DOCS_NAME" = standIn.map utf8) ∧
        arguments.name = chosen.or standIn := by
  obtain ⟨values, hvalues, h⟩ := bind_eq_ok_iff.mp h
  cases h
  obtain ⟨hnodup, hchecks, hlookup⟩ := CommandLine.parse_eq_ok command_unambiguous hspells hvalues
  have hcheck : ∀ {flag value}, values.lookup flag = some value → check flag value = .ok () := by
    intro flag value hvalue
    obtain ⟨front, back, rfl, -⟩ := List.lookup_eq_some_iff.mp hvalue
    exact hchecks (flag, value) (by simp)
  have hformat : values.lookup formatFlag = given.lookup formatFlag := by
    rw [hlookup formatFlag (by simp [command])]
    exact Option.or_none
  have hname : values.lookup nameFlag = (given.lookup nameFlag).or (environment.lookup "API_DOCS_NAME") :=
    hlookup nameFlag (by simp [command])
  refine ⟨hnodup, hlookup fileFlag (by simp [command]), ?_, hlookup outputFlag (by simp [command]), ?_⟩
  · dsimp only
    rw [hformat]
    cases hgiven : given.lookup formatFlag with
    | none => rfl
    | some value =>
        rw [hgiven] at hformat
        obtain ⟨format, rfl⟩ := exists_format_of_check (hcheck hformat)
        rw [Option.bind_some, utf8?_utf8, Option.bind_some, format.lookup_word]
        rfl
  · dsimp only
    rw [hname]
    cases hgiven : given.lookup nameFlag with
    | some value =>
        rw [hgiven, Option.some_or] at hname
        obtain ⟨word, rfl⟩ := exists_text_of_check (hcheck hname)
        exact ⟨some word, none, rfl, nofun, by simp [utf8?_utf8]⟩
    | none =>
        rw [hgiven, Option.none_or] at hname
        cases hvariable : environment.lookup "API_DOCS_NAME" with
        | none => exact ⟨none, none, rfl, fun _ => rfl, rfl⟩
        | some value =>
            obtain ⟨word, rfl⟩ := exists_text_of_check (hcheck (hname.trans hvariable))
            exact ⟨none, some word, rfl, fun _ => rfl, by simp [utf8?_utf8]⟩

/-! ### Settings -/

/-- The options that flags, variables and members of the configuration decide, each setting by its own: the flag comes first,
then the variable, then the member, then the default. -/
structure Decides (given : List (Flag × Bytes)) (environment : Environment) (members : List (String × List Char))
    (options : Options) : Prop where
  input : ∃ member, Gives IsPath members "file" member ∧
    options.input = (given.lookup fileFlag).or ((environment.lookup "API_DOCS_INPUT").or member)
  format : ∃ chosen member : Option Format, given.lookup formatFlag = chosen.map (fun format => utf8 format.word) ∧
    Gives (Chooses formatWords) members "format" member ∧ options.format = (chosen.or member).getD .markdown
  output : ∃ member, Gives IsPath members "output" member ∧
    options.output = (given.lookup outputFlag).or ((environment.lookup "API_DOCS_OUTPUT").or member)
  name : ∃ chosen standIn member : Option String, given.lookup nameFlag = chosen.map utf8 ∧
    (given.lookup nameFlag = none → environment.lookup "API_DOCS_NAME" = standIn.map utf8) ∧
    Gives IsText members "name" member ∧ options.name = (chosen.or (standIn.or member)).getD "sampleapi"

/-- The sources decide one thing for each setting. -/
theorem Decides.unique {options' : Options} (honce : ∀ name ∈ Config.memberNames, (members.map Prod.fst).count name ≤ 1)
    (h : Decides given environment members options) (h' : Decides given environment members options') :
    options = options' := by
  have hinput : options.input = options'.input := by
    obtain ⟨member, hmember, hinput⟩ := h.input
    obtain ⟨member', hmember', hinput'⟩ := h'.input
    rw [hinput, hinput', hmember.unique meaning_isPath (honce "file" (by decide)) hmember']
  have hformat : options.format = options'.format := by
    obtain ⟨chosen, member, hchosen, hmember, hformat⟩ := h.format
    obtain ⟨chosen', member', hchosen', hmember', hformat'⟩ := h'.format
    have hwords : Function.Injective fun format : Format => utf8 format.word := utf8_injective.comp Format.word_injective
    have hsame : chosen = chosen' := Option.map_injective hwords (hchosen.symm.trans hchosen')
    rw [hformat, hformat', hsame, hmember.unique (Json.meaning_chooses formatWords) (honce "format" (by decide)) hmember']
  have houtput : options.output = options'.output := by
    obtain ⟨member, hmember, houtput⟩ := h.output
    obtain ⟨member', hmember', houtput'⟩ := h'.output
    rw [houtput, houtput', hmember.unique meaning_isPath (honce "output" (by decide)) hmember']
  have hname : options.name = options'.name := by
    obtain ⟨chosen, standIn, member, hchosen, hvariable, hmember, hname⟩ := h.name
    obtain ⟨chosen', standIn', member', hchosen', hvariable', hmember', hname'⟩ := h'.name
    obtain rfl : chosen = chosen' := Option.map_injective utf8_injective (hchosen.symm.trans hchosen')
    rw [hname, hname', hmember.unique Json.meaning_isText (honce "name" (by decide)) hmember']
    cases chosen with
    | some word => rfl
    | none =>
        have hsame : standIn = standIn' :=
          Option.map_injective utf8_injective ((hvariable hchosen).symm.trans (hvariable' hchosen))
        rw [hsame]
  cases options
  cases options'
  simp only [Options.mk.injEq]
  exact ⟨hinput, hformat, houtput, hname⟩

/-- A command line that is accepted gives flags in one of their spellings, and a configuration that is accepted has members.
Whichever these are, each setting is the flag's value if it is given, else the variable's if it is set, else the member's if it
is there and not `null`, else the default. -/
theorem resolve_decides (hwords : Arguments.parse environment words = .ok arguments) (htext : Config.parse text = .ok config) :
    (∃ given, Spells command words given) ∧ (∃ members, IsRecord Config.memberNames text.toList members) ∧
      ∀ given members, Spells command words given → IsRecord Config.memberNames text.toList members →
        (given.map Prod.fst).Nodup ∧ (∀ name ∈ Config.memberNames, (members.map Prod.fst).count name ≤ 1) ∧
          ∀ options, Decides given environment members options ↔ options = Options.resolve arguments config := by
  obtain ⟨members, hrecord, honce, hfile, hformat, houtput, hname⟩ := Config.parse_eq_ok htext
  have hgiven : ∃ given, Spells command words given := by
    obtain ⟨values, hvalues, -⟩ := bind_eq_ok_iff.mp hwords
    exact CommandLine.exists_spells hvalues
  refine ⟨hgiven, ⟨members, hrecord⟩, fun given members' hspells hrecord' => ?_⟩
  obtain rfl := Json.isRecord_rightUnique Config.memberNames hrecord hrecord'
  obtain ⟨hnodup, hfile', hformat', houtput', chosen, standIn, hchosen, hvariable, hname'⟩ :=
    Arguments.parse_eq_ok hspells hwords
  have hdecides : Decides given environment members (Options.resolve arguments config) :=
    { input := ⟨config.file, hfile, by rw [Options.resolve, hfile', Option.or_assoc]⟩
      format := ⟨arguments.format, config.format, hformat', hformat, rfl⟩
      output := ⟨config.output, houtput, by rw [Options.resolve, houtput', Option.or_assoc]⟩
      name := ⟨chosen, standIn, config.name, hchosen, hvariable, hname, by rw [Options.resolve, hname', Option.or_assoc]; rfl⟩ }
  exact ⟨hnodup, honce, fun options => ⟨fun h => h.unique honce hdecides, fun h => h ▸ hdecides⟩⟩

def mixedEnvironment : Environment := [("API_DOCS_OUTPUT", utf8 "env-out")]

/-- The input is a path whose bytes are not a text. -/
def mixedWords : List Bytes := [utf8 "-fin" ++ [0xFF], utf8 "--config", utf8 "docs.json"]

/-- Unknown members, one of them twice and with values that no free reading takes, around those that count. -/
def mixedText : String :=
  "\x7b\"x\": \"\\ud800\", \"name\": \"config\", \"format\": \x7b\"openapi\": null\x7d, \"x\": 1e999, \"file\": null, \"output\":\"c\"\x7d"

/-- The four settings come from a flag in its short spelling, a member, a variable and a member. -/
theorem resolve_decides_mixed :
    ∃ arguments config, Arguments.parse mixedEnvironment mixedWords = .ok arguments ∧ Config.parse mixedText = .ok config ∧
      ∃ given members, Spells command mixedWords given ∧ IsRecord Config.memberNames mixedText.toList members ∧
        Decides given mixedEnvironment members ⟨some (utf8 "in" ++ [0xFF]), .openapi, some (utf8 "env-out"), "config"⟩ := by
  have hwords : Arguments.parse mixedEnvironment mixedWords =
      .ok { file := some (utf8 "in" ++ [0xFF]), output := some (utf8 "env-out"), config := utf8 "docs.json" } := by cbv
  have htext : Config.parse mixedText =
      .ok { format := some .openapi, output := some (utf8 "c"), name := some "config" } := by cbv
  obtain ⟨⟨given, hspells⟩, ⟨members, hrecord⟩, hdecides⟩ := resolve_decides hwords htext
  obtain ⟨-, -, hoptions⟩ := hdecides given members hspells hrecord
  exact ⟨_, _, hwords, htext, given, members, hspells, hrecord, (hoptions _).mpr rfl⟩

end RouteBook.Generator
