import LeftHookRoll.Config
import LeftHookRoll.Lib.Cursor

/-!
# `ConfigParser`: from the text of a configuration file to its servers

`tokenize` is the first pass; the functions of the second are cursors over its tokens, which throw a
`ConfigException`. `resolve` stands for `getaddrinfo`: the first address of a host.
-/

namespace LeftHookRoll

def openBrace : UInt8 := 123
def closeBrace : UInt8 := 125
def semicolon : UInt8 := 59
def hash : UInt8 := 35

namespace ConfigParser

/-! ### Tokens -/

def isPunct (c : UInt8) : Bool := c = openBrace ∨ c = closeBrace ∨ c = semicolon

/-- A character that a word goes on with. -/
def isWordChar (c : UInt8) : Bool := ¬ isspace c ∧ ¬ isPunct c ∧ c ≠ hash

def tokenize : Bytes → List Bytes
  | [] => []
  | c :: s =>
    if isspace c then tokenize s
    else if c = hash then tokenize (s.dropWhile (· ≠ LF))
    else if isPunct c then [c] :: tokenize s
    else (c :: s.takeWhile isWordChar) :: tokenize (s.dropWhile isWordChar)
termination_by s => s.length
decreasing_by
  · exact Nat.lt_succ_self _
  · exact Nat.lt_succ_of_le (List.length_dropWhile_le _ s)
  · exact Nat.lt_succ_self _
  · exact Nat.lt_succ_of_le (List.length_dropWhile_le _ s)

structure ConfigException where
  what : Bytes
deriving DecidableEq

def configException (msg : Bytes) : ConfigException := ⟨ascii "webserv: config error: " ++ msg⟩

abbrev Parser := Cursor ConfigException Bytes

def quoted (token : Bytes) : Bytes := ascii "'" ++ token ++ ascii "'"

def consume : Parser Bytes := Cursor.next (configException (ascii "unexpected end of config file"))

def expect (token : Bytes) : Parser Unit := do
  let got ← consume
  if got ≠ token then throw (configException (ascii "expected " ++ quoted token ++ ascii ", got " ++ quoted got))

/-! ### Values -/

/-- The port of a `listen`; `what` and `value` go into the error texts. -/
def parsePort (what portStr : Bytes) : Except ConfigException Nat :=
  if portStr = [] ∨ ¬ portStr.all isdigit then .error (configException (what ++ quoted portStr))
  else if atoi portStr ≤ 0 ∨ 65535 < atoi portStr then
    .error (configException (ascii "port out of range in listen: " ++ quoted portStr))
  else .ok (atoi portStr).toNat

def AF_INET : Nat := 2

def parseSockAddr (resolve : Bytes → Option Nat) (listenValue : Bytes) : Except ConfigException SockAddr :=
  match listenValue.idxOf? 58 with
  | some colon => do
    let ipStr := listenValue.take colon
    let port ← parsePort (ascii "invalid port in listen: ") (listenValue.drop (colon + 1))
    if ipStr = [] then .error (configException (ascii "invalid IP address in listen: " ++ quoted ipStr))
    else
      match resolve (cstr ipStr) with
      | none => .error (configException (ascii "invalid IP/host in listen: " ++ quoted ipStr))
      | some addr => .ok { sin_family := AF_INET, sin_port := port, sin_addr := addr }
  | none => do
    let port ← parsePort (ascii "invalid listen value: ") listenValue
    .ok { sin_family := AF_INET, sin_port := port, sin_addr := 0 }

/-- The multiplier that a suffix stands for. -/
def sizeSuffix (c : UInt8) : Option Nat :=
  if c = 107 ∨ c = 75 then some 1024
  else if c = 109 ∨ c = 77 then some (1024 * 1024)
  else if c = 103 ∨ c = 71 then some (1024 * 1024 * 1024)
  else none

/-- `atol` saturates, and the product is cut to 64 bits. -/
def parseBodySize (value : Bytes) : Except ConfigException Nat :=
  match value.getLast? with
  | none => .error (configException (ascii "empty client_max_body_size value"))
  | some suffix =>
    let multiplier := (sizeSuffix suffix).getD 1
    let numStr := if (sizeSuffix suffix).isSome then value.dropLast else value
    if numStr = [] ∨ ¬ numStr.all isdigit then
      .error (configException (ascii "invalid client_max_body_size value: " ++ quoted value))
    else .ok ((strtoll10 numStr).1.toNat * multiplier % 2 ^ 64)

def parseMethodToken (token : Bytes) : Except ConfigException HTTPMethod :=
  if token = ascii "GET" then .ok .GET
  else if token = ascii "POST" then .ok .POST
  else if token = ascii "DELETE" then .ok .DELETE
  else .error (configException (ascii "unknown HTTP method: " ++ quoted token))

/-! ### Directives of a server -/

def parseListen (resolve : Bytes → Option Nat) (conf : ServerConf) : Parser ServerConf := do
  let value ← consume
  expect (ascii ";")
  let addr ← Cursor.lift (parseSockAddr resolve value)
  return { conf with interfacePortPair := addr }

def parseServerName (conf : ServerConf) : Parser ServerConf := do
  let name ← consume
  expect (ascii ";")
  return { conf with serverName := name }

def parseMaxBodySize (conf : ServerConf) : Parser ServerConf := do
  let value ← consume
  expect (ascii ";")
  let size ← Cursor.lift (parseBodySize value)
  return { conf with maxBodySize := size }

def parseErrorPage (conf : ServerConf) : Parser ServerConf := do
  let code ← consume
  let path ← consume
  expect (ascii ";")
  if code.length ≠ 3 ∨ ¬ code.all isdigit then
    throw (configException (ascii "invalid error_page code: " ++ quoted code))
  else return conf.addErrorPage code path

/-! ### Directives of a location -/

def parseRoot (loc : LocationConf) : Parser LocationConf := do
  let root ← consume
  expect (ascii ";")
  return { loc with root := root }

def parseMethods (loc : LocationConf) : Parser LocationConf := do
  match ← Cursor.peek? with
  | none => throw (configException (ascii "unexpected end of config file"))
  | some t =>
    if t = ascii ";" then throw (configException (ascii "'methods' directive requires at least one method"))
    else
      let loc ← Cursor.loop (· = ascii ";")
        (fun token loc => return loc.addAllowedMethod (← Cursor.lift (parseMethodToken token))) loc
      expect (ascii ";")
      return loc

def parseAutoIndex (loc : LocationConf) : Parser LocationConf := do
  let value ← consume
  expect (ascii ";")
  if value = ascii "on" then return { loc with autoIndex := true }
  else if value = ascii "off" then return { loc with autoIndex := false }
  else throw (configException (ascii "autoindex must be 'on' or 'off', got: " ++ quoted value))

def parseIndex (loc : LocationConf) : Parser LocationConf := do
  let page ← consume
  expect (ascii ";")
  return { loc with defaultPage := page }

def parseUploadStore (loc : LocationConf) : Parser LocationConf := do
  let dir ← consume
  expect (ascii ";")
  return { loc with storageLocation := dir }

def parseReturn (loc : LocationConf) : Parser LocationConf := do
  let code ← consume
  let url ← consume
  expect (ascii ";")
  if ¬ code.all isdigit then throw (configException (ascii "invalid return code: " ++ quoted code))
  else return { loc with returnCode := code, returnURL := url }

def parseCgiInterpreter (loc : LocationConf) : Parser LocationConf := do
  let path ← consume
  let ext ← consume
  expect (ascii ";")
  return loc.addCgiInterpreter ext path

/-! ### Blocks -/

def locationDirective (directive : Bytes) (loc : LocationConf) : Parser LocationConf :=
  if directive = ascii "root" then parseRoot loc
  else if directive = ascii "methods" then parseMethods loc
  else if directive = ascii "autoindex" then parseAutoIndex loc
  else if directive = ascii "index" then parseIndex loc
  else if directive = ascii "upload_store" then parseUploadStore loc
  else if directive = ascii "return" then parseReturn loc
  else if directive = ascii "cgi_interpreter" then parseCgiInterpreter loc
  else throw (configException (ascii "unknown location directive: " ++ quoted directive))

/-- The body of a block: directives up to its closing brace. -/
def parseBlock {α : Type} (directive : Bytes → α → Parser α) (conf : α) : Parser α := do
  let conf ← Cursor.loop (· = [closeBrace]) directive conf
  expect ([closeBrace])
  return conf

def parseLocationBlock (path : Bytes) : Parser LocationConf := parseBlock locationDirective { path := path }

def parseLocation (conf : ServerConf) : Parser ServerConf := do
  let path ← consume
  expect ([openBrace])
  return conf.addLocation (← parseLocationBlock path)

def serverDirective (resolve : Bytes → Option Nat) (directive : Bytes) (conf : ServerConf) : Parser ServerConf :=
  if directive = ascii "listen" then parseListen resolve conf
  else if directive = ascii "server_name" then parseServerName conf
  else if directive = ascii "client_max_body_size" then parseMaxBodySize conf
  else if directive = ascii "error_page" then parseErrorPage conf
  else if directive = ascii "location" then parseLocation conf
  else throw (configException (ascii "unknown server directive: " ++ quoted directive))

def parseServerBlock (resolve : Bytes → Option Nat) : Parser ServerConf := parseBlock (serverDirective resolve) {}

/-- The body of the loop over the server blocks. -/
def serverBlock (resolve : Bytes → Option Nat) (t : Bytes) (servers : List ServerConf) : Parser (List ServerConf) :=
  if t ≠ ascii "server" then throw (configException (ascii "expected 'server' block, got: " ++ quoted t))
  else do
    expect ([openBrace])
    return servers ++ [← parseServerBlock resolve]

def parseServers (resolve : Bytes → Option Nat) : Parser (List ServerConf) :=
  Cursor.loop (fun _ => false) (serverBlock resolve) []

/-- What reading the file gave. -/
inductive ConfigFile
  | closed
  | bad
  | text (content : Bytes)

def parseText (resolve : Bytes → Option Nat) (content : Bytes) : Except ConfigException (List ServerConf) :=
  match (parseServers resolve).run (tokenize content) with
  | .error e => .error e
  | .ok (servers, _) =>
    if servers = [] then .error (configException (ascii "config contains no server blocks")) else .ok servers

def parse (resolve : Bytes → Option Nat) (filePath : Bytes) : ConfigFile → Except ConfigException (List ServerConf)
  | .closed => .error (configException (ascii "cannot open file: " ++ filePath))
  | .bad => .error (configException (ascii "read error on file: " ++ filePath))
  | .text content => parseText resolve content

end ConfigParser

end LeftHookRoll
