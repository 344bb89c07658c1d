import InteropGen.Code.Header

set_option autoImplicit false

/-!
# The managed object base

Every wrapper derives from one class that keeps track of the wrappers of native objects and disposes
of them.  It depends on the configuration alone.
-/

namespace InteropGen

namespace ObjectBase

def setter (name : String) : Code :=
  Code.block "protected void SetNativePointer(IntPtr value)" <|
    Code.lines
      ["if (NativePointer != IntPtr.Zero)", "    instances.TryRemove(NativePointer, out _);",
        "NativePointer = value;", "if (value != IntPtr.Zero)",
        "    instances[value] = new WeakReference<" ++ name ++ ">(this);"]

def lookup (name : String) : Code :=
  Code.block
      ("public static T? GetFromNativePointer<T>(IntPtr pointer, Func<IntPtr, T>? create) " ++
        "where T : " ++ name) <|
    Code.lines
      ["if (pointer == IntPtr.Zero)", "    return null;",
        "if (instances.TryGetValue(pointer, out var weak) && " ++
          "weak.TryGetTarget(out var existing))",
        "    return (T)existing;", "return create?.Invoke(pointer);"]

def release : Code :=
  Code.block "protected static void ReleaseNativeObjectPointer(IntPtr pointer)" <|
    Code.lines ["if (pointer != IntPtr.Zero)", "    NativePointerReleased?.Invoke(pointer);"]

def dispose : Code :=
  Code.block "public void Dispose()" <|
    Code.lines
      ["if (isDisposed)", "    return;", "DestroyNativeObject();", "isDisposed = true;",
        "GC.SuppressFinalize(this);"]

def members (name : String) : List Code :=
  [Code.line
      ("static readonly ConcurrentDictionary<IntPtr, WeakReference<" ++ name ++
        ">> instances = new();"),
    Code.line "bool isDisposed;",
    Code.block ("protected " ++ name ++ "()") [],
    Code.block ("protected " ++ name ++ "(IntPtr nativePointer)")
      (Code.line "SetNativePointer(nativePointer);"),
    Code.lines
      ["/// <summary>Invoked for every native pointer a wrapper call hands back.</summary>",
        "public static Action<IntPtr>? NativePointerReleased;"],
    Code.line "public IntPtr NativePointer \x7b get; private set; \x7d",
    Code.line
      "public bool IsNativeObjectDestroyed => isDisposed || NativePointer == IntPtr.Zero;",
    setter name, lookup name, release,
    Code.block "protected virtual void DestroyNativeObject()" [], dispose]

/-- What an event hands to its handlers along with a struct. -/
def eventArguments : Code :=
  Code.block "internal class NativeEventArgs<T> : EventArgs where T : struct" <|
    Code.separated
      [Code.block "public NativeEventArgs(T data)" (Code.line "Data = data;"),
        Code.line "public T Data \x7b get; \x7d",
        Code.line "public IntPtr Result \x7b get; set; \x7d"]

def eventHandler : Code :=
  Code.line
    ("internal delegate void NativeEventHandler<T>(object? sender, NativeEventArgs<T> e) " ++
      "where T : struct;")

def code (c : Config) : Code :=
  let name := c.managed.objectClass
  Code.lines
      ["#nullable enable", "", "using System;", "using System.Collections.Concurrent;", ""] ++
    Code.block ("namespace " ++ c.managed.namespace)
      (Code.separated
        [Code.block ("internal abstract class " ++ name ++ " : IDisposable")
            (Code.separated (members name)),
          eventArguments, eventHandler])

end ObjectBase

end InteropGen
