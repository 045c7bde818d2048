import RouteBook.Server.Address
import RouteBook.Text.Blank
import RouteBook.Text.Integer

/-! Where a server listens. -/

namespace RouteBook.Server

open Text (IntegerFault)

inductive ConfigError where
  /-- The port is not a number from 0 to 65535. -/
  | port (value : String) (cause : IntegerFault)
  /-- Host and port together are not an address. -/
  | address (value : String)
  deriving DecidableEq, Repr

namespace ConfigError

def message : ConfigError → String
  | .port value _ => "ポート番号が不正です: " ++ Text.quoted value
  | .address value => "バインドアドレスが不正です: " ++ Text.quoted value

/-- The text that is at fault. -/
def value : ConfigError → String
  | .port value _ | .address value => value

/-- The text of what lies behind the error. -/
def cause : ConfigError → String
  | .port _ cause => cause.message
  | .address _ => "invalid socket address syntax"

end ConfigError

structure Config where
  host : String := "127.0.0.1"
  port : UInt16 := 5000
  deriving DecidableEq, Repr

namespace Config

def hostVariable : String := "SAMPLE_API_HOST"

def portVariable : String := "SAMPLE_API_PORT"

/-- Reads a port; blanks around it do not count. -/
def parsePort (value : String) : Except ConfigError UInt16 :=
  match Text.readNat 65535 (Text.trim value.toList) with
  | .ok port => .ok port.toUInt16
  | .error cause => .error (.port value cause)

/-- The configuration in some variables; a variable that is not set leaves the default. -/
def ofVariables (lookup : String → Option String) : Except ConfigError Config := do
  let host := (lookup hostVariable).getD "127.0.0.1"
  match lookup portVariable with
  | none => .ok { host := host }
  | some value => .ok { host := host, port := ← parsePort value }

/-- The address that host and port give together. -/
def address (config : Config) : Except ConfigError Address :=
  let value := config.host ++ ":" ++ toString config.port.toNat
  match Address.parse? value with
  | some address => .ok address
  | none => .error (.address value)

end Config
end RouteBook.Server
