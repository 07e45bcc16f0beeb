import DeviceGateway.Call.Inbox
import DeviceGateway.Call.Outbox
import DeviceGateway.Json.Basic
import DeviceGateway.Job

/-!
# Handlers

A handler answers one call. It is a machine with states of its own: in each it waits for one thing,
and when that thing has happened it does some work and waits for the next. What a handler holds is
released when the call is withdrawn while it waits.

A handler never says how its call ended to the caller; it finishes with a result, and the call makes
a status of it.
-/

namespace DeviceGateway

/-- What a handler waits for, and how it goes on. -/
inductive Await (ω σ : Type) where
  | finish (result : Except GatewayError Unit)
  /-- The next message of the caller, or the end of the messages. -/
  | receive (next : Option Bytes → Job ω σ)
  /-- Room for a message to the caller. -/
  | send (payload : Bytes) (next : Except GatewayError Unit → Job ω σ)
  /-- A provider, which may never answer, but not for longer than a limit. -/
  | provider (answer : Option (Except GatewayError Json)) (limit : Duration)
    (next : Except GatewayError Json → Job ω σ)
  /-- That the call is withdrawn. -/
  | withdrawal (next : Job ω σ)
  /-- Nothing: the handler will not read messages any more, and goes on. -/
  | deafness (next : Job ω σ)

/-- **A handler** with states in `σ`, working on a world. -/
structure Handler (ω σ : Type) where
  await : σ → Await ω σ
  /-- What is released when the call is withdrawn in a state. -/
  release : σ → ω → ω

/-- What all calls of a connection share. -/
structure Shared (ω : Type) where
  world : ω
  outbox : Outbox
  /-- Steps that were handed over for calls that have been withdrawn since. -/
  orphans : List (ω → ω)

end DeviceGateway
