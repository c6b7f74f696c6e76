import SimuSound.Reasoning.BitField

/-!
# Registers — the register map the driver uses

The addresses of `ICM_20948_Reg_Addr_e` and the bit-field layouts of `ICM_20948_REGISTERS.h` that
the modelled functions name.  The map was written for four banks; the ICM-20689 has one, and only
the constants marked so in the source were re-addressed for it.  Bit fields are allocated from the
least significant bit, as the target compiler does.
-/

namespace SimuSound.Imu

open Reasoning

abbrev Byte := BitVec 8

/-! ## Addresses -/

-- User bank 0
def agb0RegUserCtrl : Byte := 0x03
def agb0RegLpConfig : Byte := 0x05
def agb0RegIntPinConfig : Byte := 0x0F
def agb0RegIntEnable : Byte := 0x10
def agb0RegIntEnable1 : Byte := 0x11
def agb0RegIntEnable2 : Byte := 0x12
def agb0RegIntEnable3 : Byte := 0x13
def agb0RegI2cMstStatus : Byte := 0x17
def agb0RegIntStatus : Byte := 0x19
def agb0RegIntStatus1 : Byte := 0x1A
def agb0RegSingleFifoPrioritySel : Byte := 0x26
def agb0RegAccelXoutH : Byte := 0x3B
def agb0RegFifoEn1 : Byte := 0x66
def agb0RegFifoEn2 : Byte := 0x67
def agb0RegFifoRst : Byte := 0x68
def agb0RegFifoMode : Byte := 0x69
def agb0RegPwrMgmt1 : Byte := 0x6B
def agb0RegPwrMgmt2 : Byte := 0x6C
def agb0RegFifoCountH : Byte := 0x70
def agb0RegFifoCountL : Byte := 0x71
def agb0RegFifoRW : Byte := 0x72
def agb0RegWhoAmI : Byte := 0x75
def agb0RegHwFixDisable : Byte := 0x75
def agb0RegMemStartAddr : Byte := 0x7C
def agb0RegMemRW : Byte := 0x7D
def agb0RegMemBankSel : Byte := 0x7E

-- Bank 1
def agb1RegTimebaseCorrectionPll : Byte := 0x28

-- Bank 2
def agb2RegGyroSmplrtDiv : Byte := 0x00
def agb2RegAccelSmplrtDiv1 : Byte := 0x10
def agb2RegAccelSmplrtDiv2 : Byte := 0x11
def agb2RegAccelWomThr : Byte := 0x13
def agb2RegGyroConfig1 : Byte := 0x1B
def agb2RegAccelConfig : Byte := 0x1C
def agb2RegAccelConfig2 : Byte := 0x1D
def agb2RegPrgmStartAddrh : Byte := 0x50

-- Bank 3
def agb3RegI2cMstOdrConfig : Byte := 0x00
def agb3RegI2cMstCtrl : Byte := 0x01
def agb3RegI2cPeriph0Addr : Byte := 0x03
def agb3RegI2cPeriph0Reg : Byte := 0x04
def agb3RegI2cPeriph0Ctrl : Byte := 0x05
def agb3RegI2cPeriph0Do : Byte := 0x06
def agb3RegI2cPeriph1Addr : Byte := 0x07
def agb3RegI2cPeriph1Reg : Byte := 0x08
def agb3RegI2cPeriph1Ctrl : Byte := 0x09
def agb3RegI2cPeriph1Do : Byte := 0x0A
def agb3RegI2cPeriph2Addr : Byte := 0x0B
def agb3RegI2cPeriph2Reg : Byte := 0x0C
def agb3RegI2cPeriph2Ctrl : Byte := 0x0D
def agb3RegI2cPeriph2Do : Byte := 0x0E
def agb3RegI2cPeriph3Addr : Byte := 0x0F
def agb3RegI2cPeriph3Reg : Byte := 0x10
def agb3RegI2cPeriph3Ctrl : Byte := 0x11
def agb3RegI2cPeriph3Do : Byte := 0x12
def agb3RegI2cPeriph4Addr : Byte := 0x13
def agb3RegI2cPeriph4Reg : Byte := 0x14
def agb3RegI2cPeriph4Ctrl : Byte := 0x15
def agb3RegI2cPeriph4Do : Byte := 0x16
def agb3RegI2cPeriph4Di : Byte := 0x17

/-! ## Bit fields -/

namespace UserCtrl
def i2cMstRst : BitField 8 := ⟨1, 1, by decide⟩
def sramRst : BitField 8 := ⟨2, 1, by decide⟩
def dmpRst : BitField 8 := ⟨3, 1, by decide⟩
def i2cMstEn : BitField 8 := ⟨5, 1, by decide⟩
def fifoEn : BitField 8 := ⟨6, 1, by decide⟩
def dmpEn : BitField 8 := ⟨7, 1, by decide⟩
end UserCtrl

namespace LpConfig
def gyroCycle : BitField 8 := ⟨4, 1, by decide⟩
def accelCycle : BitField 8 := ⟨5, 1, by decide⟩
def i2cMstCycle : BitField 8 := ⟨6, 1, by decide⟩
end LpConfig

-- ICM-20689 layout
namespace PwrMgmt1
def clksel : BitField 8 := ⟨0, 3, by decide⟩
def tempDis : BitField 8 := ⟨3, 1, by decide⟩
def gyroStandby : BitField 8 := ⟨4, 1, by decide⟩
def accelCycle : BitField 8 := ⟨5, 1, by decide⟩
def sleep : BitField 8 := ⟨6, 1, by decide⟩
def deviceReset : BitField 8 := ⟨7, 1, by decide⟩
end PwrMgmt1

namespace IntPinCfg
def bypassEn : BitField 8 := ⟨1, 1, by decide⟩
def fsyncIntModeEn : BitField 8 := ⟨2, 1, by decide⟩
def actlFsync : BitField 8 := ⟨3, 1, by decide⟩
def intAnyrd2clear : BitField 8 := ⟨4, 1, by decide⟩
def int1LatchEn : BitField 8 := ⟨5, 1, by decide⟩
def int1Open : BitField 8 := ⟨6, 1, by decide⟩
def int1Actl : BitField 8 := ⟨7, 1, by decide⟩
end IntPinCfg

namespace IntEnable
def i2cMstIntEn : BitField 8 := ⟨0, 1, by decide⟩
def dmpInt1En : BitField 8 := ⟨1, 1, by decide⟩
def pllReadyEn : BitField 8 := ⟨2, 1, by decide⟩
def womIntEn : BitField 8 := ⟨3, 1, by decide⟩
def reserved0 : BitField 8 := ⟨4, 3, by decide⟩
def regWofEn : BitField 8 := ⟨7, 1, by decide⟩
end IntEnable

namespace IntEnable1
def rawData0RdyEn : BitField 8 := ⟨0, 1, by decide⟩
def reserved0 : BitField 8 := ⟨1, 7, by decide⟩
end IntEnable1

namespace IntEnable2
def fifoOverflowEn0 : BitField 8 := ⟨0, 1, by decide⟩
def fifoOverflowEn1 : BitField 8 := ⟨1, 1, by decide⟩
def fifoOverflowEn2 : BitField 8 := ⟨2, 1, by decide⟩
def fifoOverflowEn3 : BitField 8 := ⟨3, 1, by decide⟩
def fifoOverflowEn4 : BitField 8 := ⟨4, 1, by decide⟩
def reserved0 : BitField 8 := ⟨5, 3, by decide⟩
end IntEnable2

namespace IntEnable3
def fifoWmEn0 : BitField 8 := ⟨0, 1, by decide⟩
def fifoWmEn1 : BitField 8 := ⟨1, 1, by decide⟩
def fifoWmEn2 : BitField 8 := ⟨2, 1, by decide⟩
def fifoWmEn3 : BitField 8 := ⟨3, 1, by decide⟩
def fifoWmEn4 : BitField 8 := ⟨4, 1, by decide⟩
def reserved0 : BitField 8 := ⟨5, 3, by decide⟩
end IntEnable3

namespace I2cMstStatus
def i2cPeriph4Nack : BitField 8 := ⟨4, 1, by decide⟩
def i2cPeriph4Done : BitField 8 := ⟨6, 1, by decide⟩
end I2cMstStatus

namespace IntStatus1
def rawData0RdyInt : BitField 8 := ⟨0, 1, by decide⟩
end IntStatus1

namespace FifoRst
def fifoReset : BitField 8 := ⟨0, 5, by decide⟩
end FifoRst

namespace FifoMode
def fifoMode : BitField 8 := ⟨0, 5, by decide⟩
end FifoMode

-- ICM-20689 layout
namespace GyroConfig1
def gyroFchoice : BitField 8 := ⟨0, 2, by decide⟩
def gyroFsSel : BitField 8 := ⟨3, 2, by decide⟩
end GyroConfig1

-- ICM-20689 layout
namespace AccelConfig
def accelFsSel : BitField 8 := ⟨3, 2, by decide⟩
end AccelConfig

namespace AccelSmplrtDiv1
def accelSmplrtDiv118 : BitField 8 := ⟨0, 4, by decide⟩
end AccelSmplrtDiv1

namespace I2cMstCtrl
def i2cMstClk : BitField 8 := ⟨0, 4, by decide⟩
def i2cMstPNsr : BitField 8 := ⟨4, 1, by decide⟩
end I2cMstCtrl

namespace I2cPeriphXAddr
def id : BitField 8 := ⟨0, 7, by decide⟩
def rnw : BitField 8 := ⟨7, 1, by decide⟩
end I2cPeriphXAddr

namespace I2cPeriphXCtrl
def leng : BitField 8 := ⟨0, 4, by decide⟩
def grp : BitField 8 := ⟨4, 1, by decide⟩
def regDis : BitField 8 := ⟨5, 1, by decide⟩
def byteSw : BitField 8 := ⟨6, 1, by decide⟩
def en : BitField 8 := ⟨7, 1, by decide⟩
end I2cPeriphXCtrl

namespace I2cPeriph4Ctrl
def dly : BitField 8 := ⟨0, 5, by decide⟩
def regDis : BitField 8 := ⟨5, 1, by decide⟩
def intEn : BitField 8 := ⟨6, 1, by decide⟩
def en : BitField 8 := ⟨7, 1, by decide⟩
end I2cPeriph4Ctrl

end SimuSound.Imu
