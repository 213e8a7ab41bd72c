import Yass.Net.Socks5Request

/-!
# What the client and an upstream proxy say to each other

A reply is read from the bytes of one read of the channel. One that has not arrived as a whole is
refused like one that is malformed.

Source: `cli/cli_connection.cpp`, `net/socks4.hpp`, `net/socks5.hpp`.
-/

namespace Yass.Cli.Upstream

open Yass.Net
open Yass.Net.Ss (AddressType)

/-! ## Messages -/

/-- The message of `WriteUpstreamMethodSelectRequest`: one method is offered. -/
def methodSelectRequest (authRequired : Bool) : List UInt8 :=
  [Socks5.version, 1, if authRequired then Socks5.usernameOrPassword else Socks5.noAuthRequired]

/-- The message of `WriteUpstreamAuthRequest`. A length is cut to one byte, the text is not. -/
def authRequest (username password : List UInt8) : List UInt8 :=
  [Socks5.version] ++ [UInt8.ofNat username.length] ++ username ++
    [UInt8.ofNat password.length] ++ password

/-- `request_.port_high_byte()` and `request_.port_low_byte()`. -/
def portBytes (request : Ss.Request) : List UInt8 :=
  [request.raw (request.addressTypeSize - 2), request.raw (request.addressTypeSize - 2 + 1)]

/-- `request_.address4()`. -/
def address4 (request : Ss.Request) : List UInt8 := (List.range 4).map fun i => request.raw (1 + i)

/-- `socks5::cmd_connect` and `socks4::cmd_connect`. -/
def cmdConnect : UInt8 := 0x01

/-- The message of `WriteUpstreamSocks5Request`. -/
def socks5Request (request : Ss.Request) : List UInt8 :=
  [Socks5.version, cmdConnect, 0] ++
    (match request.addressType with
      | some .domain =>
        [AddressType.domain.code, UInt8.ofNat request.address.length] ++ request.address
      | some .ipv6 => [AddressType.ipv6.code] ++ request.address
      | _ => [AddressType.ipv4.code] ++ address4 request) ++
    portBytes request

/-- `socks4::version`. -/
def socks4Version : UInt8 := 0x04

/-- The message of `WriteUpstreamSocks4Request`, for an IPv4 address. -/
def socks4Request (request : Ss.Request) : List UInt8 :=
  [socks4Version, cmdConnect] ++ portBytes request ++ address4 request ++ [0]

/-- The host of a destination as text; `toText` is `to_string` of an address. -/
def hostText (toText : List UInt8 → List UInt8) (request : Ss.Request) : List UInt8 :=
  match request.addressType with
  | some .domain => request.address
  | some .ipv6 => toText request.address
  | _ => toText (address4 request)

/-- The message of `WriteUpstreamSocks4ARequest`. -/
def socks4aRequest (toText : List UInt8 → List UInt8) (request : Ss.Request) : List UInt8 :=
  [socks4Version, cmdConnect] ++ portBytes request ++ [0, 0, 0, 0x0f] ++ [0] ++
    hostText toText request ++ [0]

def decimal (n : ℕ) : List UInt8 := (Nat.toDigits 10 n).map fun c => UInt8.ofNat c.toNat

/-- `hostname_and_port`; `isV6` tells whether a text reads as an IPv6 address. -/
def hostnameAndPort (toText : List UInt8 → List UInt8) (isV6 : List UInt8 → Bool)
    (request : Ss.Request) : List UInt8 :=
  let host := hostText toText request
  if isV6 host then [91] ++ host ++ [93, 58] ++ decimal request.port
  else host ++ [58] ++ decimal request.port

/-- `"CONNECT "`. -/
def connectText : List UInt8 := [67, 79, 78, 78, 69, 67, 84, 32]

/-- `" HTTP/1.1\r\nHost: "`. -/
def versionText : List UInt8 :=
  [32, 72, 84, 84, 80, 47, 49, 46, 49, 13, 10, 72, 111, 115, 116, 58, 32]

/-- `"\r\nProxy-Authorization: basic "`. -/
def authorizationText : List UInt8 :=
  [13, 10, 80, 114, 111, 120, 121, 45, 65, 117, 116, 104, 111, 114, 105, 122, 97, 116, 105, 111,
    110, 58, 32, 98, 97, 115, 105, 99, 32]

/-- `"\r\nProxy-Connection: Close\r\n\r\n"`. -/
def closeText : List UInt8 :=
  [13, 10, 80, 114, 111, 120, 121, 45, 67, 111, 110, 110, 101, 99, 116, 105, 111, 110, 58, 32, 67,
    108, 111, 115, 101, 13, 10, 13, 10]

/-- The header that `connected` writes to an HTTP proxy; `identity` is what
`GetProxyAuthorizationIdentity` returns, where there is a user name and a password. -/
def connectHeader (toText : List UInt8 → List UInt8) (isV6 : List UInt8 → Bool)
    (identity : Option (List UInt8)) (request : Ss.Request) : List UInt8 :=
  let target := hostnameAndPort toText isV6 request
  connectText ++ target ++ versionText ++ target ++
    (match identity with
      | some id => authorizationText ++ id
      | none => []) ++
    closeText

/-! ## Replies -/

/-- `ReadUpstreamMethodSelectResponse`; `auth` is `socks5_auth_handshake_`. -/
def methodSelectResponse (auth : Bool) : List UInt8 → Option ℕ
  | ver :: method :: _ =>
    if ver ≠ Socks5.version then none
    else if !auth && decide (method ≠ Socks5.noAuthRequired) then none
    else if auth && decide (method ≠ Socks5.usernameOrPassword) then none
    else some 2
  | _ => none

/-- `ReadUpstreamAuthResponse`. -/
def authResponse : List UInt8 → Option ℕ
  | ver :: status :: _ => if ver ≠ Socks5.version then none else if status ≠ 0 then none else some 2
  | _ => none

/-- `socks4::reply::request_granted`. -/
def socks4Granted : UInt8 := 0x5a

/-- `ReadUpstreamSocksResponse` for SOCKS4 and SOCKS4A. -/
def socks4Reply (bytes : List UInt8) : Option ℕ :=
  if bytes.length < 8 then none
  else
    match bytes with
    | nullByte :: status :: _ =>
      if nullByte ≠ 0 ∨ status ≠ socks4Granted then none else some 8
    | _ => none

/-- `ReadUpstreamSocksResponse` for SOCKS5. -/
def socks5Reply : List UInt8 → Option ℕ
  | ver :: status :: nullByte :: atyp :: rest =>
    if ver ≠ Socks5.version ∨ status ≠ 0 ∨ nullByte ≠ 0 then none
    else
      match AddressType.ofCode atyp with
      | some .ipv4 => if 4 + rest.length < 4 + 4 + 2 then none else some (4 + 4 + 2)
      | some .ipv6 => if 4 + rest.length < 4 + 16 + 2 then none else some (4 + 16 + 2)
      | some .domain =>
        match rest with
        | len :: more =>
          if 4 + (1 + more.length) < 4 + 1 + 2 then none
          else if 4 + (1 + more.length) < 4 + 1 + 2 + len.toNat then none
          else some (4 + 1 + 2 + len.toNat)
        | [] => none
      | none => none
  | _ => none

/-- What `HttpResponseParser::Parse` of a new parser gives. -/
structure Response where
  ok : Bool
  statusCode : ℕ
  nparsed : ℕ
  deriving DecidableEq, Repr

/-- `ReadUpstreamHttpsHandshake`, with what the parser makes of the bytes. -/
def httpsReply (response : Response) : Option ℕ :=
  if response.ok && response.statusCode == 200 then some response.nparsed else none

end Yass.Cli.Upstream
