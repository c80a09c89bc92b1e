import LeftHookRoll.Basic
import LeftHookRoll.Lib.OrdMap

/-!
# Methods and configuration blocks

`AllowedMethods`, `LocationConf` and `ServerConf`: what the configuration file says about a server.
-/

namespace LeftHookRoll

inductive HTTPMethod
  | UNKNOWN_METHOD
  | GET
  | POST
  | DELETE
deriving DecidableEq, Repr

namespace HTTPMethod

/-- The value of the enumerator, one bit for each known method. -/
def bit : HTTPMethod → Nat
  | UNKNOWN_METHOD => 0
  | GET => 1
  | POST => 2
  | DELETE => 4

end HTTPMethod

structure AllowedMethods where
  bitmap : Nat := 0
deriving DecidableEq, Repr

namespace AllowedMethods

def addMethod (a : AllowedMethods) (m : HTTPMethod) : AllowedMethods := ⟨a.bitmap ||| m.bit⟩

def isAllowed (a : AllowedMethods) (m : HTTPMethod) : Bool := a.bitmap &&& m.bit ≠ 0

def stringToMethod (s : Bytes) : HTTPMethod :=
  if s = ascii "GET" then .GET
  else if s = ascii "POST" then .POST
  else if s = ascii "DELETE" then .DELETE
  else .UNKNOWN_METHOD

def methodToString : HTTPMethod → Bytes
  | .GET => ascii "GET"
  | .POST => ascii "POST"
  | .DELETE => ascii "DELETE"
  | .UNKNOWN_METHOD => ascii "UNKNOWN"

end AllowedMethods

instance : Std.LawfulOrderLT Bytes := inferInstance

/-- A `std::map<std::string, std::string>`. -/
abbrev StrMap := OrdMap Bytes Bytes

structure LocationConf where
  path : Bytes := []
  root : Bytes := []
  allowedMethods : AllowedMethods := {}
  returnURL : Bytes := []
  returnCode : Bytes := []
  autoIndex : Bool := false
  defaultPage : Bytes := []
  storageLocation : Bytes := []
  cgiInterpreters : StrMap := ∅
deriving DecidableEq

namespace LocationConf

def isMethodAllowed (l : LocationConf) (m : HTTPMethod) : Bool := l.allowedMethods.isAllowed m

def getCgiInterpreter (l : LocationConf) (ext : Bytes) : Bytes :=
  (l.cgiInterpreters.find? ext).getD []

def isCgiExtension (l : LocationConf) (ext : Bytes) : Bool := l.cgiInterpreters.contains ext

def addAllowedMethod (m : HTTPMethod) (l : LocationConf) : LocationConf :=
  { l with allowedMethods := l.allowedMethods.addMethod m }

def addCgiInterpreter (ext path : Bytes) (l : LocationConf) : LocationConf :=
  { l with cgiInterpreters := l.cgiInterpreters.insert ext path }

end LocationConf

/-- A `sockaddr_in`, all zero at first; the port is in host order. -/
structure SockAddr where
  sin_family : Nat := 0
  sin_port : Nat := 0
  sin_addr : Nat := 0
deriving DecidableEq, Repr

structure ServerConf where
  serverName : Bytes := []
  interfacePortPair : SockAddr := {}
  maxBodySize : Nat := 0
  locations : List LocationConf := []
  errorPages : StrMap := ∅
deriving DecidableEq

namespace ServerConf

def getErrorPagePath (c : ServerConf) (errorCode : Bytes) : Bytes :=
  (c.errorPages.find? errorCode).getD []

def addLocation (l : LocationConf) (c : ServerConf) : ServerConf := { c with locations := c.locations ++ [l] }

def addErrorPage (errorCode path : Bytes) (c : ServerConf) : ServerConf :=
  { c with errorPages := c.errorPages.insert errorCode path }

end ServerConf

end LeftHookRoll
