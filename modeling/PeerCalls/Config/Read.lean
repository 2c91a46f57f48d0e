import Mathlib.Data.List.Basic
import PeerCalls.Go.Strconv

/-!
# `config.Read`

`Read` starts from Go's zero `Config`, sets the defaults (`Init`), reads the
YAML files in order, stopping at the first error, and then lets the
environment override the result (`ReadEnv` with the prefix `PEERCALLS_`).
`ReadEnv` runs one setter per field, each on the variable `prefix + NAME`;
an unset variable reads as the empty string, as `os.Getenv` returns it.

The file system and the YAML decoder are not in the sources and are
parameters. Neither is `config/types.go`: `StoreType`, `NetworkType` and
`AuthType` are Go string types, so they are strings here; the tests fix
`StoreTypeRedis`, `NetworkTypeSFU` and `AuthTypeSecret`, and the other three
constants are parameters. Only the fields `Read` touches are modelled;
`RedisConfig.keyPrefix` is the field `Prefix`. `splitComma` is
`strings.Split(value, ",")`, which keeps empty pieces.
-/

namespace PeerCalls.Config

open PeerCalls.Go

set_option autoImplicit false

/-- `os.Getenv`: the value of every variable, `""` when unset. -/
abbrev Env := String → String

def storeTypeRedis : String := "redis"

def networkTypeSFU : String := "sfu"

def authTypeSecret : String := "secret"

/-- The constants of `config/types.go` that no test pins down. -/
structure Constants where
  storeTypeMemory : String
  networkTypeMesh : String
  authTypeNone : String

structure TLSConfig where
  cert : String
  key : String
deriving Repr, DecidableEq

structure RedisConfig where
  host : String
  port : Int
  keyPrefix : String
deriving Repr, DecidableEq

structure StoreConfig where
  type : String
  redis : RedisConfig
deriving Repr, DecidableEq

structure SFUConfig where
  interfaces : List String
deriving Repr, DecidableEq

structure NetworkConfig where
  type : String
  sfu : SFUConfig
deriving Repr, DecidableEq

structure AuthSecret where
  username : String
  secret : String
deriving Repr, DecidableEq

structure ICEServer where
  urls : List String
  authType : String
  authSecret : AuthSecret
deriving Repr, DecidableEq

end PeerCalls.Config

namespace PeerCalls

open PeerCalls.Config

structure Config where
  baseURL : String
  bindHost : String
  bindPort : Int
  tls : TLSConfig
  store : StoreConfig
  network : NetworkConfig
  iceServers : List ICEServer
deriving Repr, DecidableEq

end PeerCalls

namespace PeerCalls.Config

open PeerCalls.Go

def zeroConfig : Config :=
  ⟨"", "", 0, ⟨"", ""⟩, ⟨"", ⟨"", 0, ""⟩⟩, ⟨"", ⟨[]⟩⟩, []⟩

/-! ## The setters of `ReadEnv` -/

def splitComma (value : String) : List String :=
  (value.data.splitOn ',').map String.mk

def setEnvSlice (env : Env) (name : String) (dest : List String) : List String :=
  dest ++ (splitComma (env name)).filter (· ≠ "")

def setEnvString (env : Env) (name : String) (dest : String) : String :=
  let value := env name
  if value ≠ "" then value else dest

def setEnvInt (env : Env) (name : String) (dest : Int) : Int :=
  match atoi (env name) with
  | some value => value
  | none => dest

/-- The `switch` of `setEnvAuthType`, `setEnvNetworkType` and
`setEnvStoreType`: a value naming one of the two constants is kept, any
other leaves the field alone. -/
def setEnvChoice (first second : String) (env : Env) (name : String) (dest : String) : String :=
  let value := env name
  if value = first then first else if value = second then second else dest

def setEnvAuthType (k : Constants) : Env → String → String → String :=
  setEnvChoice authTypeSecret k.authTypeNone

def setEnvNetworkType (k : Constants) : Env → String → String → String :=
  setEnvChoice k.networkTypeMesh networkTypeSFU

def setEnvStoreType (k : Constants) : Env → String → String → String :=
  setEnvChoice storeTypeRedis k.storeTypeMemory

/-- Unlike `setEnvSlice`, this replaces the list and keeps empty pieces. -/
def setEnvStringArray (env : Env) (name : String) (dest : List String) : List String :=
  let value := env name
  if value ≠ "" then splitComma value else dest

/-! ## Reading -/

def readEnv (k : Constants) (envPrefix : String) (env : Env) (c : Config) : Config :=
  let c := { c with baseURL := setEnvString env (envPrefix ++ "BASE_URL") c.baseURL }
  let c := { c with bindHost := setEnvString env (envPrefix ++ "BIND_HOST") c.bindHost }
  let c := { c with bindPort := setEnvInt env (envPrefix ++ "BIND_PORT") c.bindPort }
  let c := { c with tls.cert := setEnvString env (envPrefix ++ "TLS_CERT") c.tls.cert }
  let c := { c with tls.key := setEnvString env (envPrefix ++ "TLS_KEY") c.tls.key }
  let c := { c with store.type := setEnvStoreType k env (envPrefix ++ "STORE_TYPE") c.store.type }
  let c := { c with
    store.redis.host := setEnvString env (envPrefix ++ "STORE_REDIS_HOST") c.store.redis.host }
  let c := { c with
    store.redis.port := setEnvInt env (envPrefix ++ "STORE_REDIS_PORT") c.store.redis.port }
  let c := { c with
    store.redis.keyPrefix :=
      setEnvString env (envPrefix ++ "STORE_REDIS_PREFIX") c.store.redis.keyPrefix }
  let c := { c with
    network.type := setEnvNetworkType k env (envPrefix ++ "NETWORK_TYPE") c.network.type }
  let c := { c with
    network.sfu.interfaces :=
      setEnvStringArray env (envPrefix ++ "NETWORK_SFU_INTERFACES") c.network.sfu.interfaces }
  let ice : ICEServer := ⟨setEnvSlice env (envPrefix ++ "ICE_SERVER_URLS") [], "", ⟨"", ""⟩⟩
  if ice.urls.length > 0 then
    let ice := { ice with
      authType := setEnvAuthType k env (envPrefix ++ "ICE_SERVER_AUTH_TYPE") ice.authType }
    let ice := { ice with
      authSecret.secret :=
        setEnvString env (envPrefix ++ "ICE_SERVER_SECRET") ice.authSecret.secret }
    let ice := { ice with
      authSecret.username :=
        setEnvString env (envPrefix ++ "ICE_SERVER_USERNAME") ice.authSecret.username }
    { c with iceServers := c.iceServers ++ [ice] }
  else c

def init (k : Constants) (c : Config) : Config :=
  { c with
    bindPort := 3000
    network.type := k.networkTypeMesh
    store.type := k.storeTypeMemory
    iceServers := [⟨["stun:stun.l.google.com:19302"], "", ⟨"", ""⟩⟩,
      ⟨["stun:global.stun.twilio.com:3478?transport=udp"], "", ⟨"", ""⟩⟩] }

/-- The file system and the YAML decoder. -/
structure Files where
  /-- The error `os.Open(filename)` returns. -/
  openError : String → Option GoError
  /-- `yaml.NewDecoder(f).Decode(c)` on the file's contents: the config it
  leaves, partly decoded on an error, and the error. -/
  decode : String → Config → Config × Option GoError

def readYAML (decode : Config → Config × Option GoError) (c : Config) :
    Config × Option GoError :=
  let (c, err) := decode c
  (c, err.map (.wrapf "Error parsing YAML: "))

def readFile (fs : Files) (filename : String) (c : Config) : Config × Option GoError :=
  match fs.openError filename with
  | some err => (c, some (.wrapf "Error opening YAML file: " err))
  | none => readYAML (fs.decode filename) c

def readFiles (fs : Files) : List String → Config → Config × Option GoError
  | [], c => (c, none)
  | filename :: filenames, c =>
    let (c, err) := readFile fs filename c
    if err.isSome then (c, err) else readFiles fs filenames c

def read (k : Constants) (fs : Files) (env : Env) (filenames : List String) :
    Config × Option GoError :=
  let (c, err) := readFiles fs filenames (init k zeroConfig)
  (readEnv k "PEERCALLS_" env c, err)

end PeerCalls.Config
