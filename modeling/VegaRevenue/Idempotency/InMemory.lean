import Mathlib.Logic.Function.Basic
import VegaRevenue.Idempotency.Store
import VegaRevenue.Lib.Machine

/-!
# `InMemoryIdempotencyStore`

The test double of the store: two maps under one joined key.
-/

namespace VegaRevenue.Idempotency.InMemory

structure Record where
  status : Status
  /-- `none` is `undefined`. -/
  result : Option Json
  createdAt : Int
  expiresAt : Option Int

structure Store where
  entries : String → Option Record
  expiries : String → Option Rat

def empty : Store := ⟨fun _ => none, fun _ => none⟩

/-- `${tenantId}:${scope}:${key}`. -/
def key (k : Triple) : String := k.tenantId ++ ":" ++ k.scope ++ ":" ++ k.key

/-- The record with the expiry read from the second map. -/
def Store.view (s : Store) (k : String) (r : Record) : RecordView :=
  match s.expiries k with
  | none => ⟨r.status, r.result, r.createdAt, r.expiresAt⟩
  | some expiresAt => ⟨r.status, r.result, r.createdAt, newDate expiresAt⟩

/-- Writes both maps. -/
def Store.put (s : Store) (k : String) (r : Record) (expiresAt : Rat) : Store where
  entries := Function.update s.entries k (some r)
  expiries := Function.update s.expiries k (some expiresAt)

def get (s : Store) (k : String) : Answer := .record ((s.entries k).map (s.view k))

/-- The time to live of `set`, in seconds. -/
def ttl (options : Options) : Rat :=
  match options.ttlSeconds with
  | some ttlSeconds => ttlSeconds
  | none => if options.status.getD .completed = .pending then neverExpireSeconds else 86400

def set (s : Store) (k : String) (result : Json) (options : Options) (now : Clock) : Store :=
  let expiresAt := expiry now (ttl options)
  s.put k ⟨options.status.getD .completed, some result, now.ms, newDate expiresAt⟩ expiresAt

/-- FAILED with `submitted === false`. -/
def Record.canReclaim (r : Record) : Bool :=
  r.status = .failed && r.result.any (Json.memberIsBool "submitted" false)

def claim (s : Store) (k : String) (now : Clock) : Store × Answer :=
  let expiresAt := expiry now neverExpireSeconds
  if (s.entries k).all Record.canReclaim then
    (s.put k ⟨.pending, none, now.ms, newDate expiresAt⟩ expiresAt, .claimed true)
  else (s, .claimed false)

def step : Machine.Step Store Statement Answer
  | s, ⟨.get k, _⟩ => (s, get s (key k))
  | s, ⟨.set k result options, now⟩ => (set s (key k) result options now, .stored)
  | s, ⟨.claim k _, now⟩ => claim s (key k) now

@[simp] theorem put_entries_self (s : Store) (k : String) (r : Record) (e : Rat) :
    (s.put k r e).entries k = some r := Function.update_self ..

@[simp] theorem put_expiries_self (s : Store) (k : String) (r : Record) (e : Rat) :
    (s.put k r e).expiries k = some e := Function.update_self ..

theorem put_entries_ne (s : Store) {k k' : String} (r : Record) (e : Rat) (h : k' ≠ k) :
    (s.put k r e).entries k' = s.entries k' := Function.update_of_ne h ..

theorem put_expiries_ne (s : Store) {k k' : String} (r : Record) (e : Rat) (h : k' ≠ k) :
    (s.put k r e).expiries k' = s.expiries k' := Function.update_of_ne h ..

end VegaRevenue.Idempotency.InMemory
