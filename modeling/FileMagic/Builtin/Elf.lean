import FileMagic.RuleText.Source

/-! The identification octets of an ELF file tell its class and its data encoding, which is the
byte order of everything else in the header. -/

namespace FileMagic.Builtin

def elfLines : List Text := [
  "0\tubelong\t0x7f454c46\tELF".toList,
  ">4\tbyte\t1\t32-bit".toList,
  ">4\tbyte\t2\t64-bit".toList,
  ">5\tbyte\t1\tLSB".toList,
  ">>16\tuleshort\t1\trelocatable".toList,
  ">>16\tuleshort\t2\texecutable".toList,
  ">>16\tuleshort\t3\tshared object".toList,
  ">>16\tuleshort\t4\tcore file".toList,
  ">>18\tuleshort\t3\t\\b, Intel 80386".toList,
  ">>18\tuleshort\t8\t\\b, MIPS".toList,
  ">>18\tuleshort\t40\t\\b, ARM".toList,
  ">>18\tuleshort\t62\t\\b, x86-64".toList,
  ">>18\tuleshort\t183\t\\b, ARM aarch64".toList,
  ">>18\tuleshort\t243\t\\b, RISC-V".toList,
  ">>20\tulelong\t1\t\\b, version 1".toList,
  ">5\tbyte\t2\tMSB".toList,
  ">>16\tubeshort\t1\trelocatable".toList,
  ">>16\tubeshort\t2\texecutable".toList,
  ">>16\tubeshort\t3\tshared object".toList,
  ">>16\tubeshort\t4\tcore file".toList,
  ">>18\tubeshort\t2\t\\b, SPARC".toList,
  ">>18\tubeshort\t8\t\\b, MIPS".toList,
  ">>18\tubeshort\t20\t\\b, PowerPC".toList,
  ">>18\tubeshort\t21\t\\b, 64-bit PowerPC".toList,
  ">>18\tubeshort\t22\t\\b, IBM S/390".toList,
  ">>20\tubelong\t1\t\\b, version 1".toList]

end FileMagic.Builtin
