import DpdkEcho.Net.Header

/-!
# Filling the payload (`client/write_payload.h`)

`payload_constant_num` puts a number in front and copies the rest from the string constant
`PAYLOAD`. The length of the copy is an unsigned difference. `rodata` stands for the memory behind
the constant, so that a copy past its end has a meaning.
-/

namespace DpdkEcho

open Infra

/-- `PAYLOAD` -/
def payloadText : String :=
  String.join [
    "rtqeijsuiggqlxkuuvsoerdzvgbphgpyrkecwbsynngpruiubtgzcwtfltjmmnpwapcbyioboiqdbxebcrqyehebez",
    "bdwyrvdbhxfsbearajfmmscsinujutdqcftxchgzptyfypojbmnpjovoartkwupbfowfvxhfimrltocjoousmumwrq",
    "vjxukjtztcyahxfoldflyquyixahobffjawyzzaawghbjgfhpajqevfflpgoiiotkqjbajhhvyhmnydmkxbrgpbavc",
    "daanjopmnsewoebkqgqcbvxsblfgulcogxeqkaxnytevmpwobljlxtjhygawmbhktewhbiytjlmjxxtfmwytlogigv",
    "pfsgihyxgkmskppxikspqmnrarxbzihzwqufsltxiioyvcsrhjiqlcfqcavtxsrbqnogyxwerqlpiwextpuxvmflwb",
    "azjynzeiprcttniqtmdusjxwqfdzfocowaywwnmedqjfizajdqbetslgjqzsvadscxbdwrywffiwlgybupukobjpjl",
    "spaofjkmhszxzskirdieshmpfqsggjnhyiiadaumiisuontoomswlyhiyuwaupjwfjdeulymoqvmrwlncncqdaobnf",
    "mbiknxwadgbrpsfixqhnbbgnacuoivmlyxzflqnoobpqffnmkpxkzcyvoqnjvibphoxueqkjqhvgjurnxchlbncxvv",
    "beettppluoxtzewefcaktcupcqueeymcyietauqtgycceyhfqpawsnydcuehnjfpkpnsvmpieauhoawchmpiymzirh",
    "vfxcnrtdsgmxoblqycfzfsgzvtdwdhcqtakezphfntfsxagkrtwofqsaipibbzqydlcvlungidzgqmkkreznoutrcl",
    "ipksaaefpokubbycpkpfddceydjxjmdpryujwqqpeohbmyhwrgeqtsirfykynkelarbjdfycjzjfuzcitiaadbfvwl",
    "wteefdsqvzarxhrtbsjeppkpszjrdfvkufynwvihygfykpvitpaqnxdedkytwlkcbttogfaqdsveqrtymflcxhvbum",
    "cifjklzpcqhfbpbwhyoaekjpcisswegubzcyjdwzyqxsshkpdsynfofowakfmasnudmzazgdxvvtajatwxskuitxjo",
    "ewuvbhhhjdhqozoqfvquyioizhlqwqyaidvokcfbcsgnhfmthsmktbntvoleaeznatmmuawslyinilsvefdizgnbna",
    "yaxhzxxphuyzyfycmrsmidqlglknsxchkqstcsqaofvxgscfqsqlfvcwvbnhrxdclzxwettbkpsfyaafowvhlgmgle",
    "saehsionovcshwkxfxtaczcxpgzevwrbclqtkfhfbuztqhcylyufuhbcjodlxyssvvikfalxdxadvllbhyxelqsade",
    "uxpjnochcxdlgxgjzderdhnwahmuzbqtwpnsuwhhxfwcbuahkgctljjqvqct"]

/-- `sizeof(PAYLOAD)`: 1500 characters and the terminating zero byte. -/
def sizeofPayload : Nat := 1501

/-- Memory from the address of the constant on; `rodata` is what lies behind it. -/
def payloadMem (rodata : Mem) : Mem := fun i =>
  if i < sizeofPayload then payloadText.toUTF8.toList.getD i 0 else rodata i

/-- `payload_length - sizeof(uint64_t)`, a `size_t`. -/
def payloadCopyLen (payloadLength : Nat) : Nat := (payloadLength + 2 ^ 64 - 8) % 2 ^ 64

/-- `payload_constant_num`. The length is a `size_t`. -/
def payloadConstantNum (rodata m : Mem) (payload payloadLength : Nat) (num : UInt64) : Mem :=
  let m := store64 m payload num
  store m (payload + 8) (payloadCopyLen payloadLength) (payloadMem rodata)

/-- `payload_timestamp`, called with an `int` length. The timer reads `timestamp`. -/
def payloadTimestamp (rodata m : Mem) (payload : Nat) (payloadLength : Int) (timestamp : UInt64) :
    Mem :=
  payloadConstantNum rodata m payload (payloadLength % 2 ^ 64).toNat timestamp

/-- `payload_random_num`, called with an `int` length. `rank` is what the generator draws. -/
def payloadRandomNum (rodata m : Mem) (payload : Nat) (payloadLength : Int) (rank : Int) : Mem :=
  payloadConstantNum rodata m payload (payloadLength % 2 ^ 64).toNat (UInt64.ofInt (rank - 1))

end DpdkEcho
