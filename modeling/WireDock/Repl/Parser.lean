import WireDock.Domain.Hex
import WireDock.Domain.Registry
import Mathlib.Data.List.DropRight

namespace WireDock

inductive ReplError
  | parse (message : String)
  | domain (e : DomainError)
deriving DecidableEq, Repr

def ReplError.message : ReplError → String
  | parse message => s!"parse error: {message}"
  | domain e => s!"domain error: {e}"

instance : ToString ReplError := ⟨ReplError.message⟩

def isWhitespace (c : Char) : Bool :=
  let n := c.toNat
  (0x09 ≤ n && n ≤ 0x0D) || n == 0x20 || n == 0x85 || n == 0xA0 || n == 0x1680 ||
    (0x2000 ≤ n && n ≤ 0x200A) || n == 0x2028 || n == 0x2029 || n == 0x202F || n == 0x205F ||
    n == 0x3000

def trim (s : List Char) : List Char := (s.dropWhile isWhitespace).rdropWhile isWhitespace

def isSeparator (c : Char) : Bool := c == ' ' || c == '\t'

def splitTokens (s : List Char) : List String :=
  ((s.splitOnP isSeparator).filter (!·.isEmpty)).map String.ofList

def debugStr (s : List Char) : String :=
  String.ofList ('"' :: s.flatMap (Hex.escapeDebug '"') ++ ['"'])

def parsePort (message : String) (s : List Char) : Except ReplError UInt16 :=
  match parseU16 s with
  | some port => .ok port
  | none => .error (.parse s!"{message}: {String.ofList s}")

def splitHostPort (s : List Char) : Except ReplError (String × UInt16) :=
  match Text.dropPrefix ['['] s with
  | some rest =>
    match Text.splitFirst ']' rest with
    | none => .error (.parse s!"malformed ipv6 literal: {String.ofList s}")
    | some (host, after) =>
      match Text.dropPrefix [':'] after with
      | none => .error (.parse s!"missing port after ipv6 literal: {String.ofList s}")
      | some portStr => (parsePort "invalid port" portStr).map fun port ↦ (String.ofList host, port)
  | none =>
    match Text.splitLast ':' s with
    | none => .error (.parse s!"expected host:port, got {debugStr s}")
    | some (host, portStr) =>
      (parsePort "invalid port" portStr).map fun port ↦ (String.ofList host, port)

def parseOpenIpc : List String → Except ReplError Command
  | [] => .error (.parse "usage: open ipc server <path> | open ipc client <remote_path>")
  | "server" :: args =>
    match args with
    | [path] => .ok (.openIpcServer path)
    | _ => .error (.parse "usage: open ipc server <path>")
  | "client" :: args =>
    match args with
    | [remotePath] => .ok (.openIpcClient remotePath)
    | _ => .error (.parse "usage: open ipc client <remote_path>")
  | other :: _ => .error (.parse s!"unknown ipc variant: {other}")

def parseOpen : List String → Except ReplError Command
  | [] =>
    .error (.parse ("usage: open server <port> | open ipc server <path> | " ++
      "open client <local_port> <host>:<port> | open ipc client <local_path> <remote_path>"))
  | "server" :: args =>
    match args with
    | [port] => (parsePort "invalid port" port.toList).map .openTcpServer
    | _ => .error (.parse "usage: open server <port>")
  | "client" :: args =>
    match args with
    | [localPort, remote] => do
      let localPort ← parsePort "invalid local port" localPort.toList
      let (host, remotePort) ← splitHostPort remote.toList
      return .openTcpClient localPort host remotePort
    | _ => .error (.parse "usage: open client <local_port> <host>:<port>")
  | "ipc" :: args => parseOpenIpc args
  | other :: _ => .error (.parse s!"unknown open variant: {other}")

def parseTokens : List String → Except ReplError (Option Command)
  | [] => .ok none
  | "open" :: args => (parseOpen args).map some
  | "close" :: args =>
    match args with
    | [idToken] => .ok (some (.close idToken))
    | _ => .error (.parse "usage: close <id>")
  | "label" :: args =>
    match args with
    | [idToken, name] => .ok (some (.label idToken name))
    | _ => .error (.parse "usage: label <id> <name>")
  | "status" :: args =>
    match args with
    | [] => .ok (some .status)
    | _ => .error (.parse "usage: status")
  | idToken :: args =>
    match args with
    | [] => .error (.parse "expected `<id> <hex bytes...>` or a known command")
    | _ =>
      match Hex.parseHexTokens args with
      | .ok bytes => .ok (some (.send idToken bytes))
      | .error e => .error (.domain e)

def parseLine (line : String) : Except ReplError (Option Command) :=
  parseTokens (splitTokens (trim line.toList))

example : parseLine " open client 4000\t[::1]:22 " =
    .ok (some (.openTcpClient 4000 "::1" 22)) := by decide

end WireDock
