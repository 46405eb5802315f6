import ScriptEngine.Code.HandlerTable

namespace ScriptEngine

/-- The builtins of the engine, in the order in which they are laid out. -/
inductive Builtin
  | entry
  | constructEntry
  | exitStub
  | interpreterEntry
  | interpreterEnterAtBytecode
  | restartFrame
  | continuationWithCatch
  | arrayJoin
  | promiseConstructor
  | asyncFunctionAwait
  | asyncFunctionAwaitResolve
  | asyncFunctionAwaitReject
  | asyncGeneratorAwaitResolve
  | asyncGeneratorAwaitReject
  | asyncGeneratorYieldResolve
  | promiseAllResolveElement
  | promiseAllSettledResolveElement
  | promiseAnyRejectElement
  | capabilityDefaultResolve
  | capabilityDefaultReject
  | promiseAll
  | promiseAllSettled
  | promiseAny
  deriving DecidableEq

namespace Builtin

def all : List Builtin :=
  [entry, constructEntry, exitStub, interpreterEntry, interpreterEnterAtBytecode, restartFrame,
   continuationWithCatch, arrayJoin, promiseConstructor, asyncFunctionAwait,
   asyncFunctionAwaitResolve, asyncFunctionAwaitReject, asyncGeneratorAwaitResolve,
   asyncGeneratorAwaitReject, asyncGeneratorYieldResolve, promiseAllResolveElement,
   promiseAllSettledResolveElement, promiseAnyRejectElement, capabilityDefaultResolve,
   capabilityDefaultReject, promiseAll, promiseAllSettled, promiseAny]

def count : Nat := all.length

def index (b : Builtin) : Nat := all.idxOf b

def ofIndex? (i : Nat) : Option Builtin := all[i]?

/-- The name that traces show. -/
def name : Builtin → String
  | entry => "JSEntry"
  | constructEntry => "JSConstructEntry"
  | exitStub => "CEntry"
  | interpreterEntry => "InterpreterEntryTrampoline"
  | interpreterEnterAtBytecode => "InterpreterEnterAtBytecode"
  | restartFrame => "RestartFrameTrampoline"
  | continuationWithCatch => "JavaScriptBuiltinContinuationWithCatch"
  | arrayJoin => "ArrayPrototypeJoin"
  | promiseConstructor => "PromiseConstructor"
  | asyncFunctionAwait => "AsyncFunctionAwait"
  | asyncFunctionAwaitResolve => "AsyncFunctionAwaitResolveClosure"
  | asyncFunctionAwaitReject => "AsyncFunctionAwaitRejectClosure"
  | asyncGeneratorAwaitResolve => "AsyncGeneratorAwaitResolveClosure"
  | asyncGeneratorAwaitReject => "AsyncGeneratorAwaitRejectClosure"
  | asyncGeneratorYieldResolve => "AsyncGeneratorYieldWithAwaitResolveClosure"
  | promiseAllResolveElement => "PromiseAllResolveElementClosure"
  | promiseAllSettledResolveElement => "PromiseAllSettledResolveElementClosure"
  | promiseAnyRejectElement => "PromiseAnyRejectElementClosure"
  | capabilityDefaultResolve => "PromiseCapabilityDefaultResolve"
  | capabilityDefaultReject => "PromiseCapabilityDefaultReject"
  | promiseAll => "PromiseAll"
  | promiseAllSettled => "PromiseAllSettled"
  | promiseAny => "PromiseAny"

/-- Bytes of instructions. -/
def size : Builtin → Nat
  | entry | constructEntry => 128
  | interpreterEntry => 256
  | restartFrame => 32
  | promiseConstructor | arrayJoin | promiseAll | promiseAllSettled | promiseAny => 160
  | _ => 64

/-- Whether the optimizing compiler generated it. -/
def isTurbofanned : Builtin → Bool
  | entry | constructEntry | exitStub | interpreterEntry | interpreterEnterAtBytecode
  | restartFrame | continuationWithCatch => false
  | _ => true

def prediction : Builtin → HandlerPrediction
  | promiseConstructor => .promise
  | asyncFunctionAwait => .asyncAwait
  | _ => .uncaught

/-- Offset of the handler for calls out of native code. -/
def entryHandlerOffset : Nat := 96

def handlers : Builtin → HandlerTable
  | entry | constructEntry => .ofReturns [⟨0, entryHandlerOffset⟩]
  | promiseConstructor => .ofReturns [⟨40, 120⟩]
  | asyncFunctionAwait => .ofReturns [⟨24, 48⟩]
  | _ => {}

end Builtin

end ScriptEngine
