import FxLib.FxNet.TcpSend
import FxLib.Net.TcpChannel

/-!
# From the C# client to the server

`FxTcpClientSocket` sends, `FxTCPConnectSock` receives.
-/

namespace FxNet

namespace ClientChannel

open FxNet.TcpSender FxTCPConnectSock RecvSock

def step : TcpSender × Sock → SendStep ⊕ Op → Option (TcpSender × Sock) :=
  Channel.step TcpSender.step TcpSender.wire FxTCPConnectSock.step RecvSock.taken reads

/-- The client accepts messages in the order of the calls of `Send`, each with a frame of at most
65536 bytes. Where the session of the server has room for them, it gets exactly these, in order; and
as long as `recv` reports no end and no error, the socket stays connected and all of them arrive. -/
theorem client_to_server {s : TcpSender} {t₀ t : Sock} {ls : List (SendStep ⊕ Op)}
    (hfresh : Fresh t₀) (hrun : Transition.run step (opened, t₀) ls = some (s, t)) :
    s.accepted.Sublist ((Channel.senderSteps ls).flatMap called) ∧
      (∀ x ∈ s.accepted, 8 + x.length ≤ DataBuffer.maxDataLength) ∧
        ((∀ x ∈ s.accepted, 8 + x.length ≤ t₀.sessionSize) →
          Delivered s.accepted (Channel.receiverSteps ls) t) := by
  have hsender := Channel.run_sender hrun
  have hshort := accepted_short hsender
  refine ⟨accepts_of_run hsender, hshort, fun hfit => ?_⟩
  exact delivered_of_channel (fun _ _ _ hs => (step_grows hs).2) hfresh
    (fun x hx => (hshort x hx).trans (by decide)) hfit hrun (wire_in_order hsender)

/-- The kernel of the client stops inside the first frame, and the server reads what is there. -/
def twoMessages : List (SendStep ⊕ Op) :=
  [.inl (.send [1, 2]), .inl .copy, .inl .update, .inl .testUsed, .inl .beginSend,
    .inl (.take 0 4), .inr .main, .inr (.onRecv 9 (.data ((encode [1, 2]).1.take 4)) []),
    .inl (.send [3]), .inl .copy, .inl (.endSend 0), .inl (.testPop 0), .inl (.cut 0),
    .inl (.check 0), .inl (.resend 0), .inl (.take 0 15),
    .inr (.onRecv 9 (.data ((encode [1, 2]).1.drop 4)) []), .inr .main, .inr .main,
    .inr (.onRecv 9 (.data (encode [3]).1) []), .inr .main]

theorem client_to_server_two : ∃ s t,
    Transition.run step (opened, RecvSock.accepted ⟨fun _ => 0, []⟩ 16 64) twoMessages =
      some (s, t) ∧ Receives s.accepted t := by
  have hsome : (Transition.run step (opened, RecvSock.accepted ⟨fun _ => 0, []⟩ 16 64)
      twoMessages).isSome := by decide +kernel
  obtain ⟨⟨s, t⟩, hrun⟩ := Option.isSome_iff_exists.mp hsome
  have hfresh := fresh_accepted (⟨fun _ => 0, []⟩ : BinaryDataHeader)
    (show (0 : Int) < 16 by omega) (by omega) 64
  obtain ⟨hsub, -, hdelivered⟩ := client_to_server hfresh hrun
  have hcalls : ∀ x ∈ (Channel.senderSteps twoMessages).flatMap called, 8 + x.length ≤ 64 := by
    decide +kernel
  exact ⟨s, t, hrun, (hdelivered fun x hx => hcalls x (hsub.subset hx)).2 (by decide +kernel)⟩

end ClientChannel

end FxNet
