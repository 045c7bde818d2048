import RouteBook.Proofs.Text.Numerals
import RouteBook.Proofs.Text.Words
import RouteBook.Server.Config

/-! The configuration in some variables. A port is taken from exactly the texts that write a number of 16 bits, blanks around
them aside; every other text is refused with the reason that its first offending character gives, and the host is taken as
it stands. -/

namespace RouteBook.Server.Config

open Text (Numeral Faulty Trims trims_iff trim)

variable {value : String} {port : UInt16} {config : Config} {error : ConfigError} {lookup : String → Option String}

/-! ### Ports -/

theorem parsePort_eq_ok_iff :
    parsePort value = .ok port ↔ ∃ n, Numeral (trim value.toList) n ∧ n ≤ 65535 ∧ port.toNat = n := by
  rw [parsePort]
  simp only [← and_assoc, ← Text.readNat_eq_ok_iff]
  cases hread : Text.readNat 65535 (trim value.toList) with
  | error cause => simp
  | ok n =>
      obtain ⟨-, hle⟩ := Text.readNat_eq_ok_iff.mp hread
      have hsame : n.toUInt16 = port ↔ n = port.toNat := by
        rw [← UInt16.toNat_inj, Nat.toUInt16_eq, UInt16.toNat_ofNat', Nat.mod_eq_of_lt (by omega)]
      simp [hsame]

theorem parsePort_eq_error_iff :
    parsePort value = .error error ↔ ∃ cause, Faulty 65535 (trim value.toList) cause ∧ error = .port value cause := by
  rw [parsePort]
  simp only [← Text.readNat_eq_error_iff]
  cases Text.readNat 65535 (trim value.toList) with
  | error cause => simp [eq_comm]
  | ok n => simp

/-! ### Variables -/

theorem ofVariables_eq_ok_iff :
    ofVariables lookup = .ok config ↔ config.host = (lookup hostVariable).getD "127.0.0.1" ∧
      ((lookup portVariable = none ∧ config.port = 5000) ∨
        ∃ value, lookup portVariable = some value ∧ parsePort value = .ok config.port) := by
  obtain ⟨host, port⟩ := config
  rw [ofVariables]
  cases lookup portVariable with
  | none => simp [eq_comm]
  | some value =>
      cases hport : parsePort value with
      | error cause => simp [hport, bind, Except.bind]
      | ok found => simp [hport, bind, Except.bind, eq_comm]

theorem ofVariables_eq_error_iff :
    ofVariables lookup = .error error ↔ ∃ value, lookup portVariable = some value ∧ parsePort value = .error error := by
  rw [ofVariables]
  cases lookup portVariable with
  | none => simp
  | some value => cases hport : parsePort value <;> simp [hport, bind, Except.bind]

/-- When the variables give a configuration and which one, and when they give none and why. The texts taken for a port are
those that write a number up to 65535, with blanks around it, a plus sign or leading zeros if need be. -/
theorem ofVariables_outcome (lookup : String → Option String) :
    (∀ config, ofVariables lookup = .ok config ↔
      config.host = (lookup "SAMPLE_API_HOST").getD "127.0.0.1" ∧
        ((lookup "SAMPLE_API_PORT" = none ∧ config.port = 5000) ∨
          ∃ value, lookup "SAMPLE_API_PORT" = some value ∧
            ∃ body n, Trims value.toList body ∧ Numeral body n ∧ n ≤ 65535 ∧ config.port.toNat = n)) ∧
      ∀ error, ofVariables lookup = .error error ↔
        ∃ value, lookup "SAMPLE_API_PORT" = some value ∧
          ∃ body cause, Trims value.toList body ∧ Faulty 65535 body cause ∧ error = .port value cause := by
  have hhost : lookup "SAMPLE_API_HOST" = lookup hostVariable := rfl
  have hport : lookup "SAMPLE_API_PORT" = lookup portVariable := rfl
  simp only [hhost, hport, trims_iff, exists_and_left, exists_eq_left]
  refine ⟨fun config => ?_, fun error => ?_⟩
  · rw [ofVariables_eq_ok_iff]
    simp only [parsePort_eq_ok_iff]
  · rw [ofVariables_eq_error_iff]
    simp only [parsePort_eq_error_iff]

end RouteBook.Server.Config
