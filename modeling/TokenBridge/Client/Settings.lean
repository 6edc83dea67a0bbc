import TokenBridge.Toml.Document
import TokenBridge.Record.Route
import TokenBridge.Text.Quoted
/-!
The client's settings: where the ledger is, which program and config account to talk to, how
much to log, and the routes it knows by name.

A settings file is a TOML document with the tables `cluster`, `program` and `monitoring`, and
a table `routes` of one table per route. A missing `commitment` reads as `confirmed`, a
missing `token_program_id` as the 2022 token program, a missing `routes` as none. Keys the
settings do not know are ignored. A route's name is its key under `routes`, whatever its own
`name` says, and routes come in the order of their names.

Addresses stay text until asked for, so a file with a bad address still reads; asking for
one names the field and quotes the text. A route compared with a route record on the ledger
reports, in order, a different token mint, destination and token program.
-/

namespace TokenBridge

/-- Where the client finds the ledger. -/
structure ClusterSettings where
  rpcUrl : String
  commitment : String
  deriving DecidableEq, Repr

/-- The bridge program and its accounts, as texts. -/
structure ProgramSettings where
  programId : String
  configAccount : String
  tokenProgramId : String
  deriving DecidableEq, Repr

/-- How much the client logs. -/
structure MonitoringSettings where
  logLevel : String
  deriving DecidableEq, Repr

/-- The client's settings, routes apart. -/
structure ClientSettings where
  cluster : ClusterSettings
  program : ProgramSettings
  monitoring : MonitoringSettings
  deriving DecidableEq, Repr

/-- A route the client knows by name. -/
structure RouteSettings where
  name : String
  bridgeAccount : String
  tokenMint : String
  destination : UInt32
  deriving DecidableEq, Repr

/-- Why settings cannot be had. -/
inductive SettingsError where
  /-- The text is not a TOML document. -/
  | toml (e : Toml.Error)
  /-- A required key is missing. -/
  | missing (key : String)
  /-- A key holds a value of another type, or a number out of range. -/
  | wrongType (key : String) (expected : String)
  /-- The settings file cannot be read. -/
  | unreadable (path : String)
  deriving DecidableEq, Repr

/-- The error in words. -/
def SettingsError.message : SettingsError → String
  | .toml e => e.message
  | .missing key => "missing field " ++ Quoted.text key
  | .wrongType key expected => "invalid type for " ++ Quoted.text key ++ ": expected " ++ expected
  | .unreadable path => "reading config " ++ path

/-- A settings field that does not hold an address. -/
structure AddressError where
  field : String
  text : String
  cause : Address.ParseError
  deriving DecidableEq, Repr

/-- The error in words; its cause is said apart. -/
def AddressError.message (e : AddressError) : String :=
  "invalid " ++ e.field ++ " address " ++ Quoted.text e.text

/-- The address that the settings field `field` holds as `text`. -/
def settingsAddress (field text : String) : Except AddressError Address :=
  match Address.parse text with
  | .ok a => .ok a
  | .error cause => .error ⟨field, text, cause⟩

namespace ClientSettings

/-- The commitment level when none is set. -/
def defaultCommitment : String := "confirmed"

/-- The token program when none is set. -/
def defaultTokenProgram : String := Address.tokenProgram2022.toBase58

/-- Settings for a ledger on this machine. -/
def forTesting : ClientSettings where
  cluster := { rpcUrl := "http://localhost:8899", commitment := defaultCommitment }
  program :=
    { programId := "4vDVx3HbCz4aTRYyTTtFBp3MDj2ddUVsm8kj4Mv2Edtu",
      configAccount := "BuG6iUV9eLKsSRFxy6JTMDgRjuUZYZN1hDpsHkSGxa4L",
      tokenProgramId := defaultTokenProgram }
  monitoring := { logLevel := "info" }

/-- The bridge program's address. -/
def programId (s : ClientSettings) : Except AddressError Address :=
  settingsAddress "program_id" s.program.programId

/-- The config account's address. -/
def configAccount (s : ClientSettings) : Except AddressError Address :=
  settingsAddress "config_account" s.program.configAccount

/-- The token program's address. -/
def tokenProgramId (s : ClientSettings) : Except AddressError Address :=
  settingsAddress "token_program_id" s.program.tokenProgramId

end ClientSettings

namespace RouteSettings

/-- The route record's address. -/
def bridgeAccountAddress (r : RouteSettings) : Except AddressError Address :=
  settingsAddress "bridge_account" r.bridgeAccount

/-- The mint's address. -/
def tokenMintAddress (r : RouteSettings) : Except AddressError Address :=
  settingsAddress "token_mint" r.tokenMint

/-- What the route record `account` on the ledger, or the token program it names, says
otherwise than these settings: token mint, destination, token program, in that order. -/
def mismatches (r : RouteSettings) (account : Route) (tokenProgram : Address) :
    Except AddressError (List String) := do
  let mint ← r.tokenMintAddress
  let differs (what shown configured : String) (different : Bool) : List String :=
    if different then [what ++ " " ++ shown ++ " (configured " ++ configured ++ ")"] else []
  pure (differs "token mint" account.mint.toBase58 mint.toBase58 (account.mint != mint) ++
    differs "destination" (toString account.destination.toNat) (toString r.destination.toNat)
      (account.destination != r.destination) ++
    differs "token program" account.tokenProgram.toBase58 tokenProgram.toBase58
      (account.tokenProgram != tokenProgram))

end RouteSettings

namespace SettingsError

/-- The table under `key`. -/
def table (es : Toml.Entries) (key : String) : Except SettingsError Toml.Entries :=
  match es.lookup key with
  | none => .error (.missing key)
  | some n => match n.entries? with
    | some t => .ok t
    | none => .error (.wrongType key "a table")

/-- The text under `key`, or `fallback` when the key is missing and has one. -/
def text (es : Toml.Entries) (key : String) (fallback : Option String) :
    Except SettingsError String :=
  match es.lookup key, fallback with
  | some (.scalar (.string s)), _ => .ok s
  | some _, _ => .error (.wrongType key "a string")
  | none, some d => .ok d
  | none, none => .error (.missing key)

/-- The 32-bit unsigned number under `key`. -/
def word (es : Toml.Entries) (key : String) : Except SettingsError UInt32 :=
  match es.lookup key with
  | some (.scalar (.integer n)) =>
    if 0 ≤ n && n < UInt32.size then .ok n.toNat.toUInt32 else .error (.wrongType key "a u32")
  | some _ => .error (.wrongType key "a u32")
  | none => .error (.missing key)

end SettingsError

open SettingsError in
/-- The route named `name` from its table. -/
def RouteSettings.ofEntries (name : String) (es : Toml.Entries) :
    Except SettingsError RouteSettings := do
  let _ ← text es "name" (some "")
  pure { name := name, bridgeAccount := ← text es "bridge_account" none,
         tokenMint := ← text es "token_mint" none, destination := ← word es "destination" }

/-- Inserts a route into routes ordered by name. -/
def RouteSettings.insertByName (r : RouteSettings) : List RouteSettings → List RouteSettings
  | [] => [r]
  | s :: rest => if r.name < s.name then r :: s :: rest else s :: insertByName r rest

open SettingsError in
/-- Settings and routes from the root table of a settings document. -/
def ClientSettings.ofEntries (root : Toml.Entries) :
    Except SettingsError (ClientSettings × List RouteSettings) := do
  let cluster ← table root "cluster"
  let program ← table root "program"
  let monitoring ← table root "monitoring"
  let settings : ClientSettings :=
    { cluster := { rpcUrl := ← text cluster "rpc_url" none,
                   commitment := ← text cluster "commitment" (some defaultCommitment) },
      program := { programId := ← text program "program_id" none,
                   configAccount := ← text program "config_account" none,
                   tokenProgramId := ← text program "token_program_id"
                     (some defaultTokenProgram) },
      monitoring := { logLevel := ← text monitoring "log_level" none } }
  let routeTables ← match root.lookup "routes" with
    | none => pure []
    | some _ => table root "routes"
  let routes ← routeTables.mapM fun (name, n) =>
    match n.entries? with
    | some es => RouteSettings.ofEntries name es
    | none => .error (.wrongType name "a table")
  pure (settings, routes.foldr RouteSettings.insertByName [])

/-- Settings and routes from the text of a settings file. -/
def ClientSettings.ofToml (text : String) :
    Except SettingsError (ClientSettings × List RouteSettings) :=
  match Toml.parse text with
  | .ok root => ClientSettings.ofEntries root
  | .error e => .error (.toml e)

/-- Settings and routes from the file at `path`, whose text is `contents` when it could be
read. -/
def ClientSettings.ofFile (path : String) (contents : Option String) :
    Except SettingsError (ClientSettings × List RouteSettings) :=
  match contents with
  | some text => ofToml text
  | none => .error (.unreadable path)

end TokenBridge
