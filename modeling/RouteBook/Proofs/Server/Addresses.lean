import RouteBook.Proofs.Server.Literals
import RouteBook.Proofs.Server.Ports

/-! Addresses of configurations. Host and port are joined to one text and read from it again, but no host moves the place
where the port starts: the text gives an address exactly if the host alone denotes one, and then the port is the one that
was asked for. A printed address is such a text, so it configures the same address again. -/

namespace RouteBook.Server

open Text (Denotes)

variable {address : Address} {text : String} {host digits : List Char} {ip : Ipv6} {part : List Char} {groups : List UInt16}
  {embedded : Bool} {n : Nat} {scope : UInt32} {port : UInt16}

/-! ### Texts that are read as a whole -/

namespace Address

theorem readV4_eq_some_iff {text : List Char} :
    readV4 text = some (address, []) ↔ ∃ ip port digits, address = .v4 ip port ∧ text = ip.text.toList ++ ':' :: digits ∧
      digits ≠ [] ∧ Denotes 10 digits port.toNat := by
  have hcolon : ∀ more, Stops 10 (':' :: more) := stops_cons (not_isDigitOf (by decide) (by decide))
  simp only [readV4, Option.bind_eq_bind, Option.bind_eq_some_iff, Prod.exists, readIpv4_eq_some_iff,
    readPort_eq_some_iff]
  constructor
  · rintro ⟨ip, behind, ⟨htext, -⟩, port, _, ⟨digits, rfl, hne, hdenotes, -⟩, heq⟩
    obtain ⟨rfl, rfl⟩ := Prod.mk.inj (Option.some.inj heq)
    exact ⟨ip, port, digits, rfl, by simpa using htext, hne, hdenotes⟩
  · rintro ⟨ip, port, digits, rfl, htext, hne, hdenotes⟩
    exact ⟨ip, _, ⟨htext, hcolon digits⟩, port, [], ⟨digits, by simp, hne, hdenotes, by simp [Stops]⟩, rfl⟩

theorem readV6_eq_some_iff {text : List Char} :
    readV6 text = some (address, []) ↔ ∃ part zone ip scope port digits, address = .v6 ip scope port ∧
      text = '[' :: (part ++ (zone ++ ']' :: ':' :: digits)) ∧ ip.Literal part ∧ Zone zone scope ∧
      digits ≠ [] ∧ Denotes 10 digits port.toNat := by
  constructor
  · simp only [readV6, Option.bind_eq_bind, Option.bind_eq_some_iff, Prod.exists, skip?_eq_some_iff, readPort_eq_some_iff]
    rintro ⟨_, rfl, ip, _, hip, scope, _, hscope, _, rfl, port, _, ⟨digits, rfl, hne, hdenotes, -⟩, heq⟩
    obtain ⟨rfl, rfl⟩ := Prod.mk.inj (Option.some.inj heq)
    obtain ⟨part, rfl, hpart⟩ := exists_literal hip
    obtain ⟨zone, rfl, hzone⟩ := exists_zone hscope
    exact ⟨part, zone, ip, scope, port, digits, rfl, by simp, hpart, hzone, hne, hdenotes⟩
  · rintro ⟨part, zone, ip, scope, port, digits, rfl, rfl, hpart, hzone, hne, hdenotes⟩
    have hhalts : Halts (zone ++ ']' :: ':' :: digits) := by
      cases hzone with
      | unwritten => exact ⟨_, Or.inl rfl⟩
      | written => exact ⟨_, Or.inr (Or.inl rfl)⟩
    have hport : readPort (':' :: digits) = some (port, []) :=
      readPort_eq_some_iff.mpr ⟨digits, by simp, hne, hdenotes, by simp [Stops]⟩
    have hskip : ∀ c text, skip? c (c :: text) = some text := fun c text => skip?_eq_some_iff.mpr rfl
    simp only [readV6, hskip, Option.bind_eq_bind, Option.bind_some, readIpv6_append hpart hhalts, readScope_append hzone, hport]

/-- A text gives an address exactly if it is a host, a colon and the decimal digits of a port. -/
theorem parse?_eq_some_iff : parse? text = some address ↔
    ∃ host digits, text.toList = host ++ ':' :: digits ∧ Host host address ∧ digits ≠ [] ∧
      Denotes 10 digits address.port.toNat := by
  have hparse : parse? text = some address ↔ readV4 text.toList = some (address, []) ∨
      (readV4 text.toList = none ∧ readV6 text.toList = some (address, [])) := by
    unfold parse?
    rw [← Option.or_eq_some_iff]
    split
    · next found heq => simp [heq]
    · next hother => exact ⟨nofun, fun h => (hother address h).elim⟩
  rw [hparse]
  constructor
  · rintro (h | ⟨-, h⟩)
    · obtain ⟨ip, port, digits, rfl, htext, hne, hdenotes⟩ := readV4_eq_some_iff.mp h
      exact ⟨_, digits, htext, .v4 ip port, hne, hdenotes⟩
    · obtain ⟨part, zone, ip, scope, port, digits, rfl, htext, hpart, hzone, hne, hdenotes⟩ := readV6_eq_some_iff.mp h
      exact ⟨_, digits, by simpa using htext, .v6 hpart hzone port, hne, hdenotes⟩
  · rintro ⟨host, digits, htext, hhost, hne, hdenotes⟩
    cases hhost with
    | v4 ip port => exact Or.inl (readV4_eq_some_iff.mpr ⟨ip, port, digits, rfl, htext, hne, hdenotes⟩)
    | @v6 part zone ip scope hpart hzone port =>
        have hbracket : text.toList = '[' :: (part ++ (zone ++ ']' :: ':' :: digits)) := by simpa using htext
        have hnone : readIpv4 text.toList = none := by
          rw [hbracket]
          exact readIpv4_of_stops (List.forall_mem_nil _) (stops_cons (not_isDigitOf le_rfl (by decide)) _) (by simp)
        refine Or.inr ⟨?_, readV6_eq_some_iff.mpr ⟨part, zone, ip, scope, port, digits, rfl, hbracket, hpart, hzone, hne,
          hdenotes⟩⟩
        rw [readV4, hnone]
        rfl

end Address

/-! ### Host and port -/

theorem append_cons_inj_of_last {α : Type} {x : α} {front front' back back' : List α} (hback : x ∉ back) (hback' : x ∉ back')
    (h : front ++ x :: back = front' ++ x :: back') : front = front' ∧ back = back' := by
  obtain ⟨more, rfl, hmore⟩ | ⟨more, rfl, hmore⟩ := List.append_eq_append_iff.mp h
  · cases more with
    | nil => exact ⟨(List.append_nil _).symm, (List.cons_eq_cons.mp hmore).2⟩
    | cons y more =>
        obtain ⟨rfl, rfl⟩ := List.cons_eq_cons.mp hmore
        simp at hback
  · cases more with
    | nil => exact ⟨List.append_nil _, (List.cons_eq_cons.mp hmore).2.symm⟩
    | cons y more =>
        obtain ⟨rfl, rfl⟩ := List.cons_eq_cons.mp hmore
        simp at hback'

theorem colon_not_mem (h : Denotes 10 digits n) : ':' ∉ digits := fun hcolon =>
  Address.not_isDigitOf (by decide) (by decide) (h.isDigitOf_of_mem hcolon)

theorem denotes_port (port : UInt16) : Denotes 10 (Nat.toDigits 10 port.toNat) port.toNat :=
  Text.denotes_toDigits (by decide) (by decide) _

/-- A host goes with any port. -/
theorem Host.exists_port (h : Host host address) (port : UInt16) : ∃ other, Host host other ∧ other.port = port := by
  cases h with
  | v4 ip => exact ⟨_, .v4 ip port, rfl⟩
  | v6 hpart hzone => exact ⟨_, .v6 hpart hzone port, rfl⟩

namespace Config

theorem address_eq_ok_iff {config : Config} :
    config.address = .ok address ↔ Host config.host.toList address ∧ address.port = config.port := by
  have hdigits := denotes_port config.port
  have hparse : config.address = .ok address ↔
      Address.parse? (config.host ++ ":" ++ toString config.port.toNat) = some address := by
    unfold Config.address
    dsimp only
    split
    · next found hfound => rw [hfound, Except.ok.injEq, Option.some.injEq]
    · next hfound =>
      rw [hfound]
      exact ⟨nofun, nofun⟩
  have htext : (config.host ++ ":" ++ toString config.port.toNat).toList =
      config.host.toList ++ ':' :: Nat.toDigits 10 config.port.toNat := by simp
  rw [hparse, Address.parse?_eq_some_iff, htext]
  constructor
  · rintro ⟨host, digits, heq, hhost, -, hdenotes⟩
    obtain ⟨rfl, rfl⟩ := append_cons_inj_of_last (colon_not_mem hdigits) (colon_not_mem hdenotes) heq
    exact ⟨hhost, UInt16.toNat_inj.mp (hdenotes.unique (by decide) hdigits)⟩
  · rintro ⟨hhost, hport⟩
    exact ⟨_, _, rfl, hhost, Nat.toDigits_ne_nil, hport ▸ hdigits⟩

/-- Which configurations give an address and which one. The host has to denote it by itself, so whatever the host holds, the
port is the one of the configuration; otherwise the error carries the text of both. -/
theorem address_outcome (config : Config) :
    (∀ address, config.address = .ok address ↔ Host config.host.toList address ∧ address.port = config.port) ∧
      ∀ error, config.address = .error error ↔
        (∀ address, ¬Host config.host.toList address) ∧
          error = .address (config.host ++ ":" ++ toString config.port.toNat) := by
  refine ⟨fun address => address_eq_ok_iff, fun error => ?_⟩
  cases hresult : config.address with
  | ok found =>
      have hhost := (address_eq_ok_iff.mp hresult).1
      exact ⟨nofun, fun h => absurd hhost (h.1 found)⟩
  | error cause =>
      have hcause : cause = .address (config.host ++ ":" ++ toString config.port.toNat) := by
        unfold Config.address at hresult
        dsimp only at hresult
        split at hresult
        · cases hresult
        · exact (Except.error.inj hresult).symm
      have hnone : ∀ address, ¬Host config.host.toList address := by
        intro address hhost
        obtain ⟨other, hother, hport⟩ := hhost.exists_port config.port
        rw [address_eq_ok_iff.mpr ⟨hother, hport⟩] at hresult
        cases hresult
      rw [hcause]
      exact ⟨fun h => ⟨hnone, (Except.error.inj h).symm⟩, fun h => congrArg _ h.2.symm⟩

end Config

/-! ### Printed addresses -/

theorem groups_after (h : Groups true part groups embedded) (hne : groups ≠ []) :
    Groups false (':' :: part) groups embedded := by
  cases h with
  | nil => exact absurd rfl hne
  | embedded _ ip => exact .embedded false ip
  | cons hpart hmore => exact .cons hpart hmore

theorem isGroup_toDigits (group : UInt16) : IsGroup (Nat.toDigits 16 group.toNat) group := by
  have hlt := group.toNat_lt
  refine ⟨Nat.toDigits_ne_nil, ?_, Text.denotes_toDigits (by decide) le_rfl _⟩
  exact (Nat.length_toDigits_le_iff (by decide) (by decide)).mpr (by omega)

theorem groups_groupsText (groups : List UInt16) : Groups true (Ipv6.groupsText groups).toList groups false := by
  have htext : (Ipv6.groupsText groups).toList =
      [':'].intercalate (groups.map fun group => Nat.toDigits 16 group.toNat) := by
    simp [Ipv6.groupsText, Text.hexDigits, Function.comp_def]
  rw [htext]
  clear htext
  induction groups with
  | nil => exact .nil true
  | cons group groups ih =>
      have hgroup := isGroup_toDigits group
      cases groups with
      | nil =>
          have hone : Groups true (colon true ++ (Nat.toDigits 16 group.toNat ++ [])) [group] false := .cons hgroup (.nil false)
          rw [List.append_nil] at hone
          rw [List.map_singleton, List.intercalate_singleton]
          exact hone
      | cons next groups =>
          rw [List.map_cons, List.map_cons, List.intercalate_cons_cons, List.append_assoc]
          change Groups true (colon true ++ (_ ++ _)) _ _
          exact .cons hgroup (groups_after ih (List.cons_ne_nil _ _))

/-- A place among groups and a number of zeros that stand there. -/
def IsZeroRun (groups : List UInt16) (run : Nat × Nat) : Prop :=
  ∃ front back, groups = front ++ List.replicate run.2 0 ++ back ∧ front.length = run.1

theorem isZeroRun_zeroRun (groups : List UInt16) : IsZeroRun groups (Ipv6.zeroRun groups) := by
  refine List.foldlRecOn (motive := IsZeroRun groups) _ _ ⟨[], groups, rfl, rfl⟩ fun best hbest start hstart => ?_
  dsimp only
  split_ifs with hlonger
  · have hrun : (groups.drop start).takeWhile (· = 0) =
        List.replicate ((groups.drop start).takeWhile (· = 0)).length 0 :=
      List.eq_replicate_iff.mpr ⟨rfl, fun group hgroup => by simpa using List.mem_takeWhile_imp hgroup⟩
    refine ⟨groups.take start, (groups.drop start).dropWhile (· = 0), ?_, ?_⟩
    · rw [← hrun, List.append_assoc, List.takeWhile_append_dropWhile, List.take_append_drop]
    · rw [List.length_take, Nat.min_eq_left (List.mem_range.mp hstart).le]
  · exact hbest

theorem groups_halves (high low : UInt16) :
    Ipv4.groups ⟨(high / 256).toUInt8, high.toUInt8, (low / 256).toUInt8, low.toUInt8⟩ = [high, low] := by
  have hhalves : ∀ group : UInt16, (group / 256).toUInt8.toUInt16 * 256 + group.toUInt8.toUInt16 = group := by
    intro group
    have hlt := group.toNat_lt
    rw [← UInt16.toNat_inj]
    simp
    omega
  rw [Ipv4.groups, hhalves, hhalves]

theorem literal_groupsText {ip : Ipv6} {front back : List UInt16} {length : Nat} (hlength : 1 < length)
    (hgroups : ip.groups = front ++ List.replicate length 0 ++ back) :
    ip.Literal (Ipv6.groupsText front ++ "::" ++ Ipv6.groupsText back).toList := by
  have hcount := ip.length_eq
  rw [hgroups, List.length_append, List.length_append, List.length_replicate] at hcount
  have htext : (Ipv6.groupsText front ++ "::" ++ Ipv6.groupsText back).toList =
      (Ipv6.groupsText front).toList ++ ':' :: ':' :: (Ipv6.groupsText back).toList := by simp
  have hroom : 8 - front.length - back.length = length := by omega
  rw [htext]
  exact .gap (groups_groupsText front) (groups_groupsText back) (by omega) (by rw [hroom]; exact hgroups)

theorem literal_mapped {ip : Ipv6} {high low : UInt16} (hgroups : ip.groups = [0, 0, 0, 0, 0, 0xffff, high, low]) :
    ip.Literal ("::ffff:" ++
      Ipv4.text ⟨(high / 256).toUInt8, high.toUInt8, (low / 256).toUInt8, low.toUInt8⟩).toList := by
  have hones : IsGroup ['f', 'f', 'f', 'f'] 0xffff := isGroup_toDigits 0xffff
  have hmore := Groups.embedded false ⟨(high / 256).toUInt8, high.toUInt8, (low / 256).toUInt8, low.toUInt8⟩
  rw [groups_halves] at hmore
  have hback : Groups true (colon true ++ _) _ _ := .cons hones hmore
  have hliteral := Ipv6.Literal.gap (.nil true) hback (by simp) hgroups
  simpa [colon] using hliteral

/-- The printed form of an IPv6 address denotes it, whichever way it was shortened. -/
theorem literal_text (ip : Ipv6) : ip.Literal ip.text.toList := by
  unfold Ipv6.text
  split
  · next high low hgroups => exact literal_mapped hgroups
  · have hrun := isZeroRun_zeroRun ip.groups
    generalize Ipv6.zeroRun ip.groups = run at hrun ⊢
    obtain ⟨start, length⟩ := run
    obtain ⟨front, back, hgroups, rfl⟩ := hrun
    dsimp only at hgroups ⊢
    split_ifs with hlong
    · have htake : ip.groups.take front.length = front := by
        rw [hgroups, List.append_assoc, List.take_left]
      have hdrop : ip.groups.drop (front.length + length) = back := by
        rw [hgroups]
        exact List.drop_left' (by simp)
      rw [htake, hdrop]
      exact literal_groupsText hlong hgroups
    · exact .whole (groups_groupsText ip.groups)

/-- The host part of a printed address denotes it. -/
theorem host_hostText (address : Address) : Host address.hostText.toList address := by
  cases address with
  | v4 ip port => exact .v4 ip port
  | v6 ip scope port =>
      have hzone : Zone (if scope = 0 then "" else "%" ++ toString scope.toNat).toList scope := by
        split_ifs with hscope
        · subst hscope
          exact .unwritten
        · have hdigits : Zone ('%' :: Nat.toDigits 10 scope.toNat) scope :=
            .written Nat.toDigits_ne_nil (Text.denotes_toDigits (by decide) (by decide) _)
          simpa using hdigits
      have hhost := Host.v6 (literal_text ip) hzone port
      simpa [Address.hostText] using hhost

namespace Config

theorem parsePort_toString (port : UInt16) : parsePort (toString port.toNat) = .ok port := by
  have hle : port.toNat ≤ 65535 := by have := port.toNat_lt; omega
  have hdigits := denotes_port port
  have hsolid : ∀ c ∈ Nat.toDigits 10 port.toNat, Text.isBlank c = false ∧ c ≠ '+' := by
    intro c hc
    obtain ⟨d, hd⟩ := hdigits.isDigitOf_of_mem hc
    have htable : ∀ d < 10, Text.isBlank (Nat.digitChar d) = false ∧ Nat.digitChar d ≠ '+' := by decide
    rw [hd.eq_digitChar]
    exact htable d hd.1
  have htrim : Text.trim (toString port.toNat).toList = Nat.toDigits 10 port.toNat := by
    have hself : Text.trim (Nat.toDigits 10 port.toNat) = Nat.toDigits 10 port.toNat :=
      Text.trim_of_edges (fun c hc => (hsolid c (List.mem_of_head? hc)).1)
        fun c hc => (hsolid c (List.mem_of_getLast? hc)).1
    simpa using hself
  have hunsigned : Text.unsigned (Nat.toDigits 10 port.toNat) = Nat.toDigits 10 port.toNat := by
    unfold Text.unsigned
    split
    · next digits heq => exact absurd rfl (hsolid '+' (heq ▸ List.mem_cons_self)).2
    · rfl
  have hnumeral : Text.Numeral (Nat.toDigits 10 port.toNat) port.toNat := by
    rw [Text.Numeral, hunsigned]
    exact ⟨Nat.toDigits_ne_nil, hdigits⟩
  rw [parsePort_eq_ok_iff, htrim]
  exact ⟨port.toNat, hnumeral, hle, rfl⟩

/-- A printed address configures the same address: with what stands before its last colon as the host and what stands behind
it as the port, the variables give a configuration, and that one gives the address. -/
theorem text_configures (address : Address) :
    (∃ host port, address.text = host ++ ":" ++ port ∧ ':' ∉ port.toList) ∧
      ∀ host port, address.text = host ++ ":" ++ port → ':' ∉ port.toList → ∀ lookup : String → Option String,
        lookup "SAMPLE_API_HOST" = some host → lookup "SAMPLE_API_PORT" = some port →
          ∃ config, ofVariables lookup = .ok config ∧ config.address = .ok address := by
  have hcolon : ':' ∉ (toString address.port.toNat).toList := by
    simpa using colon_not_mem (denotes_port address.port)
  refine ⟨⟨address.hostText, toString address.port.toNat, rfl, hcolon⟩, ?_⟩
  intro host port htext hport lookup hhostVariable hportVariable
  have hparts : address.hostText.toList = host.toList ∧ (toString address.port.toNat).toList = port.toList := by
    refine append_cons_inj_of_last hcolon hport ?_
    simpa [Address.text] using congrArg String.toList htext
  obtain rfl := String.toList_inj.mp hparts.1
  obtain rfl := String.toList_inj.mp hparts.2
  refine ⟨⟨address.hostText, address.port⟩, ?_, address_eq_ok_iff.mpr ⟨host_hostText address, rfl⟩⟩
  rw [ofVariables_eq_ok_iff]
  refine ⟨?_, Or.inr ⟨_, hportVariable, parsePort_toString address.port⟩⟩
  rw [hostVariable, hhostVariable]
  rfl

/-- An IPv6 address with a gap and a scope. -/
theorem text_configures_scoped : ∃ config,
    ofVariables (fun name => if name = "SAMPLE_API_HOST" then some "[fe80::1%7]" else some "8080") = .ok config ∧
      config.address = .ok (.v6 ⟨[0xfe80, 0, 0, 0, 0, 0, 0, 1], rfl⟩ 7 8080) := by
  have htext : (Address.v6 ⟨[0xfe80, 0, 0, 0, 0, 0, 0, 1], rfl⟩ 7 8080).text = "[fe80::1%7]" ++ ":" ++ "8080" := by cbv
  exact (text_configures _).2 _ _ htext (by decide) _ rfl rfl

end Config

end RouteBook.Server
