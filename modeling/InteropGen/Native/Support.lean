import InteropGen.Code.Header

set_option autoImplicit false

/-!
# The support header

What all native files rely on: how functions are exported and called, how text crosses the boundary,
what is thrown when a trampoline cannot be reached, and the operators of flags enums.  It depends on
the configuration alone.
-/

namespace InteropGen

namespace NativeSupport

def libraries : List String :=
  ["atomic", "cstdint", "cstdlib", "cstring", "new", "stdexcept", "string", "type_traits", "vector"]

def libraryLine (name : String) : String := "#include <" ++ name ++ ">"

/-- How functions are exported and called, on the one platform and on the others. -/
def exportMacros (convention : String) : List String :=
  ["#ifdef _WIN32", "#include <objbase.h>", "#define NATIVE_API extern \"C\" __declspec(dllexport)",
    "#define NATIVE_API_CALL " ++ convention,
    "#define NATIVE_CALLBACK_CALL " ++ convention, "#else",
    "#define NATIVE_API extern \"C\" __attribute__((visibility(\"default\")))",
    "#define NATIVE_API_CALL", "#define NATIVE_CALLBACK_CALL", "#endif"]

def exceptionCode (name constructor text : String) : Code :=
  Code.blockEnding ("class " ++ name ++ " : public std::logic_error") ";" <|
    Code.line "public:" ++
      Code.nest
        (Code.lines [constructor, "    : std::logic_error(" ++ text ++ ")"] ++ Code.braces [])

def locatorException : Code :=
  exceptionCode "TrampolineLocatorNotSetException"
    "explicit TrampolineLocatorNotSetException(const char* typeName)"
    "std::string(\"Trampoline locator is not set for \") + typeName"

def slotException : Code :=
  exceptionCode "UnknownTrampolineException"
    "UnknownTrampolineException(const char* typeName, int trampoline)"
    ("std::string(\"Unknown trampoline \") + std::to_string(trampoline) + \" in \" + typeName")

def allocation : Code :=
  Code.block "inline char16_t* AllocInteropString(const string& value)" <|
    Code.lines
      ["size_t size = (value.size() + 1) * sizeof(char16_t);", "#ifdef _WIN32",
        "auto buffer = static_cast<char16_t*>(CoTaskMemAlloc(size));", "#else",
        "auto buffer = static_cast<char16_t*>(malloc(size));", "#endif", "if (buffer == nullptr)",
        "    throw std::bad_alloc();", "memcpy(buffer, value.c_str(), size);", "return buffer;"]

def conversion : Code :=
  Code.block "inline string FromInteropString(const char16_t* value)"
    (Code.line "return value == nullptr ? string() : string(value);")

def release : Code :=
  Code.block "inline void FreeInteropString(char16_t* value)" <|
    Code.lines ["#ifdef _WIN32", "CoTaskMemFree(value);", "#else", "free(value);", "#endif"]

def binaryOperator (sign : String) : String :=
  "    inline E operator" ++ sign ++ "(E a, E b) \x7b using U = std::underlying_type_t<E>; " ++
    "return static_cast<E>(static_cast<U>(a) " ++ sign ++ " static_cast<U>(b)); \x7d \\"

/-- The operators of a flags enum, as one macro over several lines. -/
def flagsMacro : List String :=
  ["#define APIGEN_FLAGS_OPERATORS(E) \\", binaryOperator "|", binaryOperator "&",
    binaryOperator "^",
    "    inline E operator~(E a) \x7b using U = std::underlying_type_t<E>; " ++
      "return static_cast<E>(~static_cast<U>(a)); \x7d \\",
    "    inline E& operator|=(E& a, E b) \x7b return a = a | b; \x7d \\",
    "    inline E& operator&=(E& a, E b) \x7b return a = a & b; \x7d"]

def code (c : Config) : Code :=
  Code.lines ["#pragma once", ""] ++ Code.lines (libraries.map libraryLine) ++
    Code.blank ++ Code.lines (exportMacros c.native.convention.native) ++
    Code.blank ++ Code.lines ["typedef uint8_t c_bool;", "using string = std::u16string;"] ++
    Code.spaced [locatorException, slotException, allocation, conversion, release] ++
    Code.blank ++ Code.unindented flagsMacro

end NativeSupport

end InteropGen
